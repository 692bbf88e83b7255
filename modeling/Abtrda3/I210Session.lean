import Abtrda3.I210BringUp

/-! A whole life of the I210 driver object: `init`, the hot path of the two rings, the
destructor. Every run keeps the order, and at its end the card writes to no memory and none
is held. On a card that keeps its configuration `init` warns of nothing it has set itself. -/
namespace Abtrda3.I210Session
open Abtrda3.I210 Abtrda3.I210Init Abtrda3.I210Order Abtrda3.I210BringUp
open Abtrda3.Semantics.Interaction Abtrda3.Semantics.Interaction.Program
open Abtrda3.Semantics.Machine (run Along run_trans run_singleton run_cons_some along_true)

inductive Hot
  | rx (event : I210Receive.Event)
  | tx (event : I210Transmit.Event)

/-- Of the receive side only `release` speaks to the card: it stores the descriptor, and at the
end of a batch it writes the tail. -/
def hotRx (p : Params) (rx : I210Receive.State) (event : I210Receive.Event) : Driver I210Receive.State :=
  match I210Receive.step p rx event with
  | none => .done rx
  | some next =>
    if event = .release then do
      storeRx rx.rxTail.toNat (I210Receive.slotAddr p rx.rxTail.toNat) 0
      given (rxFreeThresh ≤ rx.rxHeld + 1) (writeReg Reg.rdt0 next.rdt) ()
      return next
    else .done next

def hotTx (p : Params) (tx : I210Transmit.State) (event : I210Transmit.Event) : Driver I210Transmit.State :=
  match I210Transmit.step p tx event with
  | none => .done tx
  | some next =>
    if event = .commit then do
      writeReg Reg.tdt0 next.tdt
      return next
    else .done next

def hot (p : Params) (mode : DriverMode) (object : Object) : Hot → Driver Object
  | .rx event => do
    let rx ← given mode.hasRx (hotRx p object.rx event) object.rx
    return {object with rx := rx}
  | .tx event => do
    let tx ← given mode.hasTx (hotTx p object.tx event) object.tx
    return {object with tx := tx}

def hotPath (p : Params) (mode : DriverMode) (object : Object) : List Hot → Driver Object
  | [] => .done object
  | event::rest => do
    let object ← hot p mode object event
    hotPath p mode object rest

def destroy (mode : DriverMode) (object : Object) : Driver Unit := do
  shutdown mode object
  free .txBuffer
  free .txRing
  free .rxBuffer
  free .rxRing
  (ask Call.closeBar : Driver Unit)

def session (p : Params) (mode : DriverMode) (object : Object) (script : List Hot) : Driver (Bool × Object) := do
  let ready ← init p mode object
  let object ← given ready.1 (hotPath p mode ready.2 script) ready.2
  destroy mode object
  return (ready.1,object)

variable {p : Params} {mode : DriverMode} {allows : Setup → Exchange Call Reply → Prop} {s t u : Setup}
variable {names : List Checked} {object : Object}

section HotPath

variable {rxMemory : Nat → Descriptor} {buffers : BitVec 64 → List (BitVec 8)} {txMemory : Nat → Descriptor}

def freshObject (rxMemory : Nat → Descriptor) (buffers : BitVec 64 → List (BitVec 8))
    (txMemory : Nat → Descriptor) : Object :=
  ⟨false,⟨rxMemory,buffers,0,0,0,false,0,[],[],0⟩,I210Transmit.start txMemory,List.replicate 6 0⟩

structure RxFollows (p : Params) (rxMemory : Nat → Descriptor) (buffers : BitVec 64 → List (BitVec 8))
    (rx : I210Receive.State) (t : Setup) : Prop where
  tail : t.reg Reg.rdt0 = some rx.rdt
  reached : ∃ events, run (I210Receive.step p) (I210Receive.start p rxMemory buffers) events = some rx

structure TxFollows (p : Params) (txMemory : Nat → Descriptor) (tx : I210Transmit.State) (t : Setup) : Prop where
  tail : (t.reg Reg.tdt0).getD 0 = tx.tdt
  reached : ∃ events, run (I210Transmit.step p) (I210Transmit.start txMemory) events = some tx

structure Running (p : Params) (mode : DriverMode) (rxMemory : Nat → Descriptor) (buffers : BitVec 64 → List (BitVec 8))
    (txMemory : Nat → Descriptor) (object : Object) (t : Setup) : Prop where
  mapped : t.bar = true
  opened : object.opened = true
  noRx : mode.hasRx = false → t.receiving = false
  noTx : mode.hasTx = false → t.transmitting = false
  rxUp : mode.hasRx = true → RxUp p t
  txUp : mode.hasTx = true → TxUp p t
  rx : mode.hasRx = true → RxFollows p rxMemory buffers object.rx t
  tx : mode.hasTx = true → TxFollows p txMemory object.tx t

private theorem running_of_brought {result : Bool × Object}
    (brought : Brought p mode names (freshObject rxMemory buffers txMemory) result t) (ok : result.1 = true) :
    Running p mode rxMemory buffers txMemory result.2 t where
  mapped := brought.mapped ok
  opened := brought.opened.trans (brought.mapped ok)
  noRx := brought.noRx
  noTx := brought.noTx
  rxUp has := (brought.rx ok has).1
  txUp has := (brought.tx ok has).1
  rx has := by
    obtain ⟨_,tail,started⟩ := brought.rx ok has
    exact ⟨tail,[],congrArg some started.symm⟩
  tx has := by
    obtain ⟨_,tail,started⟩ := brought.tx ok has
    refine ⟨?_,[],congrArg some started.symm⟩
    rw [tail,started]
    rfl

private theorem rdt_kept {rx next : I210Receive.State} {event : I210Receive.Event}
    (moved : I210Receive.step p rx event = some next)
    (held : event = .release → ¬ rxFreeThresh ≤ rx.rxHeld + 1) : next.rdt = rx.rdt := by
  cases event with
  | tryReceive =>
    obtain ⟨_,same⟩ := Option.ite_none_right_eq_some.mp moved
    cases same
    unfold I210Receive.tryReceive
    dsimp only
    split <;> rfl
  | release =>
    obtain ⟨_,same⟩ := Option.ite_none_right_eq_some.mp moved
    cases same
    unfold I210Receive.release
    dsimp only
    rw [if_neg (held rfl)]
  | fill frame wb =>
    obtain ⟨_,same⟩ := Option.ite_none_right_eq_some.mp moved
    cases same
    rfl

private theorem tdt_reclaimLoop (p : Params) (fuel : Nat) (tx : I210Transmit.State) :
    (I210Transmit.reclaimLoop p fuel tx).tdt = tx.tdt := by
  induction fuel generalizing tx with
  | zero => rfl
  | succ fuel ih =>
    unfold I210Transmit.reclaimLoop
    split
    · rw [ih]
      rfl
    · rfl

private theorem tdt_kept {tx next : I210Transmit.State} {event : I210Transmit.Event}
    (moved : I210Transmit.step p tx event = some next)
    (other : event ≠ .commit) : next.tdt = tx.tdt := by
  cases event with
  | acquire frameLen =>
    cases Option.some.inj moved
    have looked : (if I210Transmit.full p tx = true then I210Transmit.txReclaim p tx else tx).tdt = tx.tdt := by
      split
      · exact tdt_reclaimLoop p _ tx
      · rfl
    unfold I210Transmit.acquire
    dsimp only
    generalize (if I210Transmit.full p tx = true then I210Transmit.txReclaim p tx else tx) = after at looked ⊢
    split <;> exact looked
  | commit => exact absurd rfl other
  | txReclaim =>
    cases Option.some.inj moved
    exact tdt_reclaimLoop p _ tx
  | transmit =>
    obtain ⟨_,same⟩ := Option.ite_none_right_eq_some.mp moved
    cases same
    rfl
  | writeBack desc =>
    obtain ⟨_,same⟩ := Option.ite_none_right_eq_some.mp moved
    cases same
    rfl

private theorem hotRx_spec {rx : I210Receive.State} {event : I210Receive.Event} (mapped : s.bar = true) (up : RxUp p s)
    (follows : RxFollows p rxMemory buffers rx s) :
    Safe (watch p) allows s (hotRx p rx event) (fun next t =>
      Frame (· = Reg.rdt0) (· = .rxRing) [] s t ∧ RxUp p t ∧ RxFollows p rxMemory buffers next t) := by
  obtain ⟨tail,events,reached⟩ := follows
  unfold hotRx
  cases moved : I210Receive.step p rx event with
  | none => exact ⟨Frame.refl s,up,tail,events,reached⟩
  | some next =>
    have onward : ∃ events, run (I210Receive.step p) (I210Receive.start p rxMemory buffers) events = some next :=
      ⟨events ++ [event],run_trans reached (run_singleton moved)⟩
    dsimp only
    split
    next released =>
      refine safe_bind.mpr (safe_request rfl (fun reply _ => ?_))
      have stored : s.effect p ⟨.storeRx rx.rxTail.toNat (I210Receive.slotAddr p rx.rxTail.toNat) 0,reply⟩ =
          {s with described := Function.update s.described rx.rxTail.toNat true} := by
        simp [Setup.effect]
      rw [stored]
      have up : RxUp p {s with described := Function.update s.described rx.rxTail.toNat true} := up.store
      have frame : Frame (· = Reg.rdt0) (· = .rxRing) [] s
          {s with described := Function.update s.described rx.rxTail.toNat true} :=
        ⟨rfl,fun _ _ => rfl,fun _ => id,fun _ => id,fun _ _ => rfl,fun outside => absurd rfl outside,fun _ => .inl⟩
      refine safe_bind.mpr (safe_given (fun flushes => ?_) (fun holds => ?_))
      · refine safe_writeReg mapped ?_ (by decide) ⟨frame.trans ?_,?_,reg_set_self _ _ _,onward⟩
        · change (next.rdt = 0 || s.rxSeen) = true
          rw [up.seen,Bool.or_true]
        · exact (frame_set _ Reg.rdt0 next.rdt).mono (fun _ => id) (fun _ => False.elim) (fun _ => id)
        · exact up.frame (frame_set _ Reg.rdt0 next.rdt) (by decide) (by simp)
      · refine ⟨frame,up,?_,onward⟩
        rw [rdt_kept moved (fun _ => of_decide_eq_false holds)]
        exact tail
    next other =>
      refine ⟨Frame.refl s,up,?_,onward⟩
      rw [rdt_kept moved (fun same => absurd same other)]
      exact tail

private theorem hotTx_spec {tx : I210Transmit.State} {event : I210Transmit.Event} (mapped : s.bar = true) (up : TxUp p s)
    (follows : TxFollows p txMemory tx s) :
    Safe (watch p) allows s (hotTx p tx event) (fun next t =>
      Frame (· = Reg.tdt0) (fun _ => False) [] s t ∧ TxUp p t ∧ TxFollows p txMemory next t) := by
  obtain ⟨tail,events,reached⟩ := follows
  unfold hotTx
  cases moved : I210Transmit.step p tx event with
  | none => exact ⟨Frame.refl s,up,tail,events,reached⟩
  | some next =>
    have onward : ∃ events, run (I210Transmit.step p) (I210Transmit.start txMemory) events = some next :=
      ⟨events ++ [event],run_trans reached (run_singleton moved)⟩
    dsimp only
    split
    next committed =>
      have frame := frame_set s Reg.tdt0 next.tdt
      refine safe_bind.mpr (safe_writeReg mapped ?_ (by decide) ⟨frame,up.frame frame (by decide) (by simp),?_,onward⟩)
      · change (s.txSeen && s.transmitting) = true
        rw [up.seen,up.transmitting]
        rfl
      · rw [reg_set_self]
        rfl
    next other =>
      refine ⟨Frame.refl s,up,?_,onward⟩
      rw [tdt_kept moved other]
      exact tail

private theorem hot_spec {event : Hot} (running : Running p mode rxMemory buffers txMemory object s) :
    Safe (watch p) allows s (hot p mode object event) (Running p mode rxMemory buffers txMemory) := by
  cases event with
  | rx event =>
    refine safe_bind.mpr (safe_given (fun has => ?_) (fun _ => running))
    refine (hotRx_spec running.mapped (running.rxUp has) (running.rx has)).mono ?_
    rintro rx t ⟨frame,up,follows⟩
    refine ⟨frame.bar.trans running.mapped,running.opened,by simp [has],fun lacks => ?_,fun _ => up,fun hasTx => ?_,
      fun _ => follows,fun hasTx => ⟨?_,(running.tx hasTx).reached⟩⟩
    · exact (frame.on (by decide) _).trans (running.noTx lacks)
    · exact (running.txUp hasTx).frame frame (by decide) (by decide)
    · rw [frame.reg _ (by decide)]
      exact (running.tx hasTx).tail
  | tx event =>
    refine safe_bind.mpr (safe_given (fun has => ?_) (fun _ => running))
    refine (hotTx_spec running.mapped (running.txUp has) (running.tx has)).mono ?_
    rintro tx t ⟨frame,up,follows⟩
    refine ⟨frame.bar.trans running.mapped,running.opened,fun lacks => ?_,by simp [has],fun hasRx => ?_,fun _ => up,
      fun hasRx => ⟨?_,(running.rx hasRx).reached⟩,fun _ => follows⟩
    · exact (frame.on (by decide) _).trans (running.noRx lacks)
    · exact (running.rxUp hasRx).frame frame (by decide) (by simp)
    · rw [frame.reg _ (by decide)]
      exact (running.rx hasRx).tail

private theorem hotPath_spec (script : List Hot) (running : Running p mode rxMemory buffers txMemory object s) :
    Safe (watch p) allows s (hotPath p mode object script) (Running p mode rxMemory buffers txMemory) := by
  induction script generalizing object s with
  | nil => exact running
  | cons event rest ih => exact safe_bind.mpr ((hot_spec running).mono (fun _ _ still => ih still))

structure Gone (t : Setup) : Prop where
  bar : t.bar = false
  receiving : t.receiving = false
  transmitting : t.transmitting = false
  held : ∀ region, t.held region = none

def tailRegs : List Nat := [Reg.rdt0,Reg.tdt0]

private theorem shutdown_spec (opened : object.opened = s.bar)
    (unmapped : s.bar = false → s.receiving = false ∧ s.transmitting = false)
    (noRx : mode.hasRx = false → s.receiving = false) (noTx : mode.hasTx = false → s.transmitting = false) :
    Safe (watch p) allows s (shutdown mode object) (fun _ t => t.receiving = false ∧ t.transmitting = false ∧
      ∀ offset ∈ tailRegs, t.reg offset = s.reg offset) := by
  unfold shutdown
  rw [opened]
  cases mapped : s.bar with
  | false => exact ⟨(unmapped mapped).1,(unmapped mapped).2,fun _ _ => rfl⟩
  | true =>
    have off {u : Setup} {offset : Nat} {bit : BitVec 32} (clear : Cleared u offset bit) : u.on offset bit = false := by
      obtain ⟨value,written,zero⟩ := clear
      rw [Setup.on,written]
      simp [zero]
    have rx : Safe (watch p) allows s (given mode.hasRx (clearBits Reg.rctl rctlRxen) ()) (fun _ t => t.bar = true ∧
        Frame (· = Reg.rctl) (fun _ => False) [] s t ∧ t.receiving = false) := by
      refine safe_given (fun _ => ?_) (fun lacks => ⟨mapped,Frame.refl s,noRx lacks⟩)
      refine (clearBits_spec mapped (by decide) (fun value => ?_)).mono (fun _ t after => ⟨after.1,after.2.1,off after.2.2⟩)
      rw [Setup.ordered,if_pos rfl,cleared_and]
      rfl
    refine safe_bind.mpr (rx.mono ?_)
    rintro _ t1 ⟨mapped,frame1,idle⟩
    have tx : Safe (watch p) allows t1 (given mode.hasTx (clearBits Reg.tctl tctlEn) ()) (fun _ t => t.bar = true ∧
        Frame (· = Reg.tctl) (fun _ => False) [] t1 t ∧ t.transmitting = false) := by
      refine safe_given (fun _ => ?_) (fun lacks => ⟨mapped,Frame.refl t1,(frame1.on (by decide) _).trans (noTx lacks)⟩)
      refine (clearBits_spec mapped (by decide) (fun value => ?_)).mono (fun _ t after => ⟨after.1,after.2.1,off after.2.2⟩)
      rw [Setup.ordered,if_neg (by decide),if_pos rfl,cleared_and]
      rfl
    refine safe_bind.mpr (tx.mono ?_)
    rintro _ t2 ⟨mapped,frame2,quiet⟩
    refine (quiet_disableInterrupts t2 mapped).mono (fun _ t3 after => ?_)
    have frame3 := after.2
    refine ⟨?_,(frame3.on (by decide) _).trans quiet,fun offset listed => ?_⟩
    · exact (frame3.on (by decide) _).trans ((frame2.on (by decide) _).trans idle)
    · have apart : ¬ irqRegs offset ∧ offset ≠ Reg.tctl ∧ offset ≠ Reg.rctl := by
        revert offset
        decide
      rw [frame3.reg _ apart.1,frame2.reg _ apart.2.1,frame1.reg _ apart.2.2]

private theorem destroy_spec (opened : object.opened = s.bar)
    (unmapped : s.bar = false → s.receiving = false ∧ s.transmitting = false)
    (noRx : mode.hasRx = false → s.receiving = false) (noTx : mode.hasTx = false → s.transmitting = false) :
    Safe (watch p) allows s (destroy mode object) (fun _ t => Gone t ∧ ∀ offset ∈ tailRegs, t.reg offset =
      s.reg offset) := by
  refine safe_bind.mpr ((shutdown_spec opened unmapped noRx noTx).mono ?_)
  rintro _ t ⟨idle,quiet,tails⟩
  have rxOff : (!t.receiving) = true := by rw [idle]; rfl
  have txOff : (!t.transmitting) = true := by rw [quiet]; rfl
  refine safe_bind.mpr (safe_request txOff (fun _ _ => ?_))
  refine safe_bind.mpr (safe_request txOff (fun _ _ => ?_))
  refine safe_bind.mpr (safe_request rxOff (fun _ _ => ?_))
  refine safe_bind.mpr (safe_request rxOff (fun _ _ => ?_))
  refine safe_request (by change (!t.receiving && !t.transmitting) = true; rw [rxOff,txOff]; rfl)
      (fun _ _ => ⟨⟨rfl,idle,quiet,?_⟩,tails⟩)
  intro region
  cases region <;> rfl

end HotPath

def everything : List Checked :=
  [.eeer,.ipcnfg,.phyEee,.dmacr,.pciemisc,.ctrlExt,.tqavctrl,.ctrl,.eitr0,.dvmolr0,.rxdctl0,.txdctl0]

private theorem passes_everything (answers : Nat → BitVec 32 → Prop) : Passes everything answers := by
  constructor <;> simp [everything]

/-- Whatever the card answers and whatever the hot path does, the driver keeps the order of
the registers, and its rings are those of `I210Receive` and `I210Transmit` from their start on.
At the end nothing runs and no memory is left. -/
theorem session_keeps_order (p : Params) (mode : DriverMode) (rxMemory : Nat → Descriptor)
    (buffers : BitVec 64 → List (BitVec 8))
    (txMemory : Nat → Descriptor) (script : List Hot) {trace : List (Exchange Call Reply)} {result : Bool × Object}
    (ran : Runs (session p mode (freshObject rxMemory buffers txMemory) script) trace result) :
    ∃ t, run (watch p) Setup.start trace = some t ∧ Gone t ∧
      (result.1 = true → (mode.hasRx = true → RxFollows p rxMemory buffers result.2.rx t) ∧
        (mode.hasTx = true → TxFollows p txMemory result.2.tx t)) := by
  have safe : Safe (watch p) (fun _ _ => True) Setup.start (session p mode (freshObject rxMemory buffers txMemory) script)
      (fun result t => Gone t ∧ (result.1 = true → (mode.hasRx = true → RxFollows p rxMemory buffers result.2.rx t) ∧
        (mode.hasTx = true → TxFollows p txMemory result.2.tx t))) := by
    refine safe_bind.mpr ((init_spec rfl (fun _ _ _ => passes_everything _)).mono ?_)
    rintro ⟨ok,object⟩ s brought
    cases ok with
    | false =>
      refine safe_bind.mpr (safe_bind.mpr ((destroy_spec brought.opened brought.unmapped brought.noRx
          brought.noTx).mono ?_))
      exact fun _ t gone => ⟨gone.1,by simp⟩
    | true =>
      refine safe_bind.mpr ((hotPath_spec script (running_of_brought brought rfl)).mono ?_)
      intro object u running
      refine safe_bind.mpr ((destroy_spec (running.opened.trans running.mapped.symm) ?_ running.noRx running.noTx).mono ?_)
      · intro unmapped
        rw [running.mapped] at unmapped
        cases unmapped
      · rintro _ t ⟨gone,tails⟩
        refine ⟨gone,fun _ => ⟨fun has => ⟨?_,(running.rx has).reached⟩,fun has => ⟨?_,(running.tx has).reached⟩⟩⟩
        · rw [tails _ (by decide)]
          exact (running.rx has).tail
        · rw [tails _ (by decide)]
          exact (running.tx has).tail
  exact safe.run ran (along_true _ _ _)


section Lab

def labRead (registers : List (Nat × BitVec 32)) (offset : Nat) : BitVec 32 :=
  let word := (registers.lookup offset).getD 0
  if offset = Reg.status then statusPfRstDone ||| statusLu ||| statusSpeedMask
  else if offset = Reg.mdic then mdicReady
  else if offset = Reg.ctrl then word &&& ~~~ctrlDevRst
  else word

/-- A card that keeps what is written to it and does at once what it is asked for. -/
def keepingCard (registers : List (Nat × BitVec 32)) : (request : Call) → Reply request × List (Nat × BitVec 32)
  | .openBar => (true,registers)
  | .readReg offset => (labRead registers offset,registers)
  | .writeReg offset value => ((),(offset,value)::registers)
  | .allocate region _ => (some (if region = .rxRing then 0x30000#64 else 0x40000#64),registers)
  | .closeBar | .disableASPM | .storeRx _ _ _ | .sleep _ | .free _ | .print _ => ((),registers)

def labScript : List Hot :=
  [.rx (.fill [1,2,3] ⟨0,0,1,0⟩),.tx (.acquire 60),.rx .tryReceive,.tx .commit,.rx .release,.tx .transmit]

def labSession : List (Exchange Call Reply) × Bool × Object :=
  exec keepingCard [] (session labCard .RxTx (freshObject (fun _ => 0) (fun _ => []) (fun _ => 0)) labScript)

theorem session_keeps_order_lab :
    labSession.2.1 = true ∧ ∃ t, run (watch labCard) Setup.start labSession.1 = some t ∧ Gone t ∧
      (labSession.2.1 = true →
        (DriverMode.RxTx.hasRx = true → RxFollows labCard (fun _ => 0) (fun _ => []) labSession.2.2.rx t) ∧
        (DriverMode.RxTx.hasTx = true → TxFollows labCard (fun _ => 0) labSession.2.2.tx t)) :=
  ⟨by decide +kernel,session_keeps_order labCard .RxTx _ _ _ labScript (runs_exec keepingCard [] _)⟩

end Lab

section SelfCheck

def warnings (trace : List (Exchange Call Reply)) : List Checked :=
  trace.filterMap fun exchange =>
    match exchange.request with
    | .print (.warn what _ _) => some what
    | _ => none

private theorem warned_effect (s : Setup) (exchange : Exchange Call Reply) :
    (s.effect p exchange).warned = s.warned ++ warnings [exchange] := by
  obtain ⟨request,reply⟩ := exchange
  cases request with
  | print report => cases report <;> simp [Setup.effect,warnings]
  | writeReg offset value =>
    simp only [Setup.effect]
    split <;> simp [warnings,Setup.forget,Setup.set]
  | _ => simp [Setup.effect,warnings,Setup.see]

private theorem warned_run {trace : List (Exchange Call Reply)} (watched : run (watch p) s trace = some t) :
    t.warned = s.warned ++ warnings trace := by
  induction trace generalizing s with
  | nil =>
    cases Option.some.inj watched
    simp [warnings]
  | cons exchange rest ih =>
    obtain ⟨next,moved,after⟩ := run_cons_some watched
    obtain ⟨_,same⟩ := Option.ite_none_right_eq_some.mp moved
    cases same
    rw [ih after,warned_effect,List.append_assoc]
    congr 1
    exact (List.filterMap_append (l := [exchange])).symm

def configRegs : List Nat :=
  [Reg.eeer,Reg.ipcnfg,Reg.dmacr,Reg.pciemisc,Reg.ctrlExt,Reg.ctrl,Reg.eitr0,Reg.dvmolr0,Reg.rxdctl0,Reg.txdctl0]

/-- A card that keeps its configuration: such a register reads as it was written, the throttle
up to its two lowest bits, and the reset bit has cleared itself. -/
def stores (s : Setup) : Exchange Call Reply → Bool
  | ⟨.readReg offset,value⟩ =>
    let word : BitVec 32 := value
    let kept := match s.reg offset with
      | some written => word = written || (offset = Reg.eitr0 && word = written &&& ~~~3)
      | none => true
    (offset ≠ Reg.ctrl || word &&& ctrlDevRst = 0) && (offset ∉ configRegs || kept)
  | _ => true

/-- What the check looks at and the driver does not write. -/
def unwritten (mode : DriverMode) : List Checked :=
  [.phyEee,.tqavctrl] ++ (if mode.hasRx then [] else [.dvmolr0,.rxdctl0]) ++ (if mode.hasTx then [] else [.txdctl0])

private theorem steady_stores : Steady (fun s exchange => stores s exchange = true) := by
  intro s value allowed
  have clear := (Bool.and_eq_true_iff.mp allowed).1
  simpa using clear

theorem stored {value : BitVec 32} {names : List Checked} {offset : Nat} {written : BitVec 32}
    (answered : Answers (fun s exchange => stores s exchange = true) names s offset value) (listed : offset ∈ configRegs)
    (was : s.reg offset = some written) : value = written ∨ offset = Reg.eitr0 ∧ value = written &&& ~~~3 := by
  obtain ⟨t,⟨_,frame⟩,allowed⟩ := answered
  have apart : offset ≠ Reg.mdic := by
    rintro rfl
    revert listed
    decide
  have kept := (Bool.and_eq_true_iff.mp allowed).2
  rw [frame.reg offset apart,was] at kept
  simpa [listed] using kept

theorem answers_cleared {value mask : BitVec 32} {names : List Checked} {offset : Nat} (clear : Cleared s offset mask)
    (listed : offset ∈ configRegs) (other : offset ≠ Reg.eitr0)
    (answered : Answers (fun s exchange => stores s exchange = true) names s offset value) : value &&& mask = 0 := by
  obtain ⟨written,was,zero⟩ := clear
  rcases stored answered listed was with rfl | ⟨same,_⟩
  · exact zero
  · exact absurd same other

theorem answers_on {value bit : BitVec 32} {names : List Checked} {offset : Nat} (on : s.on offset bit = true)
    (listed : offset ∈ configRegs) (other : offset ≠ Reg.eitr0)
    (answered : Answers (fun s exchange => stores s exchange = true) names s offset value) : value &&& bit ≠ 0 := by
  unfold Setup.on at on
  cases was : s.reg offset with
  | none => simp [was] at on
  | some written =>
    rw [was] at on
    rcases stored answered listed was with rfl | ⟨same,_⟩
    · exact of_decide_eq_true on
    · exact absurd same other

private theorem passes_stores {names : List Checked} (configured : Configured mode s) :
    Passes (unwritten mode) (Answers (fun s exchange => stores s exchange = true) names s) := by
  have power := configured.power
  refine ⟨?_,?_,by simp [unwritten],?_,?_,?_,?_,by simp [unwritten],?_,?_,?_,?_,?_,?_⟩
  · exact fun value answered bad => absurd (answers_cleared power.eeer (by decide) (by decide) answered) bad
  · exact fun value answered bad => absurd (answers_cleared power.ipcnfg (by decide) (by decide) answered) bad
  · exact fun value answered bad => absurd (answers_cleared power.dmacr (by decide) (by decide) answered) bad
  · exact fun value answered bad => absurd (answers_cleared power.pciemisc (by decide) (by decide) answered) bad
  · exact fun value answered bad => absurd (answers_cleared (power.ctrlExt.part (by decide)) (by decide) (by decide)
      answered) bad
  · exact fun value answered bad => absurd (answers_cleared (power.ctrlExt.part (by decide)) (by decide) (by decide)
      answered) bad
  · exact fun value answered bad => absurd (answers_cleared (configured.ctrl.part (by decide)) (by decide) (by decide)
      answered) bad
  · exact fun value answered bad => absurd (answers_cleared (configured.ctrl.part (by decide)) (by decide) (by decide)
      answered) bad
  · intro value answered bad
    rcases stored answered (by decide) configured.eitr with same | ⟨_,same⟩
    · exact absurd same bad.1
    · exact absurd same bad.2
  · intro value answered bad
    cases has : mode.hasRx with
    | false => simp [unwritten,has]
    | true => exact absurd bad (answers_on (configured.rx has).2 (by decide) (by decide) answered)
  · intro value answered bad
    cases has : mode.hasRx with
    | false => simp [unwritten,has]
    | true => exact absurd bad (answers_on (configured.rx has).1 (by decide) (by decide) answered)
  · intro value answered bad
    cases has : mode.hasTx with
    | false => simp [unwritten,has]
    | true => exact absurd bad (answers_on (configured.tx has) (by decide) (by decide) answered)

/-- On a card that keeps its configuration the check at the end of `init` complains of nothing
that `init` has set: only of what no line of the driver writes. -/
theorem init_warns_of_unwritten (p : Params) (mode : DriverMode) (object : Object) (closed : object.opened = false)
    {trace : List (Exchange Call Reply)} {result : Bool × Object} (ran : Runs (init p mode object) trace result)
    (keeps : Along (watch p) (fun s exchange => stores s exchange = true) Setup.start trace) :
    ∀ what ∈ warnings trace, what ∈ unwritten mode := by
  have safe : Safe (watch p) (fun s exchange => stores s exchange = true) Setup.start (init p mode object)
      (Brought p mode (unwritten mode) object) :=
    init_spec closed (fun u _ configured => passes_stores (configured steady_stores))
  obtain ⟨t,watched,brought⟩ := safe.run ran keeps
  have said : t.warned = warnings trace := warned_run watched
  rw [← said]
  exact brought.warned

def labBrought : List (Exchange Call Reply) × Bool × Object := exec keepingCard [] (init labCard .RxTx labObject)

theorem init_warns_of_unwritten_lab :
    labBrought.2.1 = true ∧ ∀ what ∈ warnings labBrought.1, what ∈ unwritten .RxTx := by
  have ran : Runs (init labCard .RxTx labObject) labBrought.1 labBrought.2 := runs_exec keepingCard [] _
  refine ⟨by decide +kernel,?_⟩
  exact init_warns_of_unwritten labCard .RxTx labObject rfl ran (by decide +kernel)

end SelfCheck

end Abtrda3.I210Session
