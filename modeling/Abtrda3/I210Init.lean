import Abtrda3.I210Receive
import Abtrda3.I210Transmit
import Abtrda3.Semantics.Interaction

/-! The cold path of the I210 driver: `init` with everything it calls, and `shutdown`. The
driver speaks to the card through BAR0 only, and nothing is assumed about the card: every
register read is answered with any word. `disableASPM`, which speaks to the configuration
space and may not return, is one request. The rings are those of `I210Receive` and
`I210Transmit`, which start where `initRx` and `initTx` leave them. -/
namespace Abtrda3.I210Init
open Abtrda3.I210 Abtrda3.Semantics.Interaction Abtrda3.Semantics.Interaction.Program

variable {α : Type}

inductive DriverMode
  | RxOnly
  | TxOnly
  | RxTx
  deriving DecidableEq, Repr

def DriverMode.hasRx (mode : DriverMode) : Bool := mode = .RxOnly || mode = .RxTx

def DriverMode.hasTx (mode : DriverMode) : Bool := mode = .TxOnly || mode = .RxTx

namespace Reg

def ctrl : Nat := 0x0000
def status : Nat := 0x0008
def ctrlExt : Nat := 0x0018
def mdic : Nat := 0x0020
def wuc : Nat := 0x0030
def rctl : Nat := 0x0100
def tctl : Nat := 0x0400
def tipg : Nat := 0x0410
def eeer : Nat := 0x0E30
def ipcnfg : Nat := 0x0E38
def icr : Nat := 0x1500
def imc : Nat := 0x150C
def eimc : Nat := 0x1528
def eicr : Nat := 0x1580
def eitr0 : Nat := 0x1680
def dmacr : Nat := 0x02508
def dmctlx : Nat := 0x02514
def tqavctrl : Nat := 0x03570
def mtaBase : Nat := 0x5200
def ral0 : Nat := 0x5400
def rah0 : Nat := 0x5404
def pciemisc : Nat := 0x05BB8
def rdbal0 : Nat := 0xC000
def rdbah0 : Nat := 0xC004
def rdlen0 : Nat := 0xC008
def srrctl0 : Nat := 0xC00C
def rdt0 : Nat := 0xC018
def rxdctl0 : Nat := 0xC028
def dvmolr0 : Nat := 0x0C038
def tdbal0 : Nat := 0xE000
def tdbah0 : Nat := 0xE004
def tdlen0 : Nat := 0xE008
def tdt0 : Nat := 0xE018
def txdctl0 : Nat := 0xE028
def phyPowerMgmt : Nat := 0xE854

end Reg

def ctrlSlu : BitVec 32 := 1#32 <<< 6
def ctrlFrcspd : BitVec 32 := 1#32 <<< 11
def ctrlFrcdplx : BitVec 32 := 1#32 <<< 12
def ctrlRfce : BitVec 32 := 1#32 <<< 27
def ctrlTfce : BitVec 32 := 1#32 <<< 28
def ctrlDevRst : BitVec 32 := 1#32 <<< 29
def statusLu : BitVec 32 := 1#32 <<< 1
def statusSpeedShift : Nat := 6
def statusSpeedMask : BitVec 32 := 0x3#32 <<< statusSpeedShift
def statusPfRstDone : BitVec 32 := 1#32 <<< 21
def irqDisableAll : BitVec 32 := 0xFFFFFFFF
def rctlRxen : BitVec 32 := 1#32 <<< 1
def rctlBam : BitVec 32 := 1#32 <<< 15
def rctlSecrc : BitVec 32 := 1#32 <<< 26
def srrctlBsizepacketShift : Nat := 0
def srrctlDesctypeAdvOne : BitVec 32 := 1#32 <<< 25
def srrctlDropEn : BitVec 32 := 1#32 <<< 31
def rxdctlEnable : BitVec 32 := 1#32 <<< 25
def tctlEn : BitVec 32 := 1#32 <<< 1
def tctlPsp : BitVec 32 := 1#32 <<< 3
def tctlCtIeee : BitVec 32 := 0xF#32 <<< 4
def tctlBstDef : BitVec 32 := 0x40#32 <<< 12
def tctlRtlc : BitVec 32 := 1#32 <<< 24
def txdctlEnable : BitVec 32 := 1#32 <<< 25
def tipgDefault : BitVec 32 := 8#32 ||| (8#32 <<< 10) ||| (6#32 <<< 20)
def dvmolrStrcrc : BitVec 32 := 0x80000000
def mdicDataMask : BitVec 32 := 0xFFFF
def mdicRegaddShift : Nat := 16
def mdicOpWrite : BitVec 32 := 1#32 <<< 26
def mdicOpRead : BitVec 32 := 2#32 <<< 26
def mdicReady : BitVec 32 := 1#32 <<< 28
def mdicError : BitVec 32 := 1#32 <<< 30
def phyBmcr : BitVec 32 := 0
def phyAnar : BitVec 32 := 4
def phyGbcr : BitVec 32 := 9
def bmcrReset : BitVec 16 := 1#16 <<< 15
def bmcrAne : BitVec 16 := 1#16 <<< 12
def bmcrRestartAn : BitVec 16 := 1#16 <<< 9
def anarAll : BitVec 16 := 0x0001#16 ||| (1#16 <<< 5) ||| (1#16 <<< 6) ||| (1#16 <<< 7) ||| (1#16 <<< 8)
def gbcr1000Fd : BitVec 16 := 1#16 <<< 9

def rctlBsize (p : Params) : BitVec 32 :=
  if p.buffSize = 256 then 3#32 <<< 16
  else if p.buffSize = 512 then 2#32 <<< 16
  else if p.buffSize = 1024 then 1#32 <<< 16
  else 0#32 <<< 16

/-- What `verifyLowLatencyConfig` looks at. -/
inductive Checked
  | eeer
  | ipcnfg
  | phyEee
  | dmacr
  | pciemisc
  | ctrlExt
  | tqavctrl
  | ctrl
  | eitr0
  | dvmolr0
  | rxdctl0
  | txdctl0
  deriving DecidableEq, Repr

inductive Expected
  | clear (mask : BitVec 32)
  | set (mask : BitVec 32)
  | value (word : BitVec 32)
  deriving DecidableEq, Repr

inductive Report
  | resetComplete
  | resetTimeout
  | powerSavingDisabled
  | mac (bytes : List (BitVec 8))
  | mdicWriteTimeout (reg : BitVec 32)
  | mdicReadError (reg : BitVec 32)
  | mdicReadTimeout (reg : BitVec 32)
  | phyResetFailed
  | phyInitialised
  | rxRingFailed
  | rxBufferFailed
  | rxEnableTimeout (rxdctl : BitVec 32)
  | rxInitialised
  | txRingFailed
  | txBufferFailed
  | txEnableTimeout
  | txInitialised
  | linkUp (mbps : Nat)
  | linkNotUp
  | warn (what : Checked) (value : BitVec 32) (expected : Expected)
  | verified
  | warnings (count : Nat)
  deriving DecidableEq, Repr

/-- The memory the driver gets for the card: `m_rxRing`, `m_rxBuffer`, `m_txRing`, `m_txBuffer`. -/
inductive Region
  | rxRing
  | rxBuffer
  | txRing
  | txBuffer
  deriving DecidableEq, Repr

inductive Call
  | openBar
  | closeBar
  | disableASPM
  | readReg (offset : Nat)
  | writeReg (offset : Nat) (value : BitVec 32)
  | storeRx (slot : Nat) (pktAddr hdrAddr : BitVec 64)
  | sleep (microseconds : Nat)
  | allocate (region : Region) (size : Nat)
  | free (region : Region)
  | print (report : Report)
  deriving DecidableEq, Repr

def Reply : Call → Type
  | .openBar => Bool
  | .readReg _ => BitVec 32
  | .allocate _ _ => Option (BitVec 64)
  | _ => Unit

abbrev Driver := Program Call Reply

def readReg (offset : Nat) : Driver (BitVec 32) := ask (Call.readReg offset)

def writeReg (offset : Nat) (value : BitVec 32) : Driver Unit := ask (Call.writeReg offset value)

def sleep (microseconds : Nat) : Driver Unit := ask (Call.sleep microseconds)

def print (report : Report) : Driver Unit := ask (Call.print report)

def allocate (region : Region) (size : Nat) : Driver (Option (BitVec 64)) := ask (Call.allocate region size)

def free (region : Region) : Driver Unit := ask (Call.free region)

def storeRx (slot : Nat) (pktAddr hdrAddr : BitVec 64) : Driver Unit := ask (Call.storeRx slot pktAddr hdrAddr)

/-- A register is read until a test holds, with a sleep after each read that fails it. -/
def pollReg (offset : Nat) (test : BitVec 32 → Bool) (pause : Nat) (turns : Nat) : Driver (Option (BitVec 32)) :=
  attempts (do
    let value ← readReg offset
    if test value then return some value
    else do
      sleep pause
      return none) turns

def clearBits (offset : Nat) (mask : BitVec 32) : Driver Unit := do
  let value ← readReg offset
  writeReg offset (value &&& ~~~mask)

def reset : Driver Unit := do
  let ctrl ← readReg Reg.ctrl
  writeReg Reg.ctrl (ctrl ||| ctrlDevRst)
  sleep 5000
  let complete ← pollReg Reg.status (fun status => status &&& statusPfRstDone ≠ 0) 10000 100
  print (if complete.isSome then .resetComplete else .resetTimeout)

def disableInterrupts : Driver Unit := do
  writeReg Reg.imc irqDisableAll
  writeReg Reg.eimc irqDisableAll
  let _ ← readReg Reg.icr
  let _ ← readReg Reg.eicr
  each (fun i => writeReg (Reg.eitr0 + 4 * i) 0xFFFF) (List.range 5)
  writeReg Reg.wuc 0

def disableEEE : Driver Unit := do
  clearBits Reg.eeer (0x00010000 ||| 0x00020000 ||| 0x00040000)
  clearBits Reg.ipcnfg (0x00000008 ||| 0x00000004)
  writeReg Reg.dmacr 0
  writeReg Reg.dmctlx 0
  clearBits Reg.pciemisc 0x00000080
  clearBits Reg.ctrlExt (0x00100000 ||| 0x00200000)
  print .powerSavingDisabled

def clearPhyLinkDown : Driver Unit := clearBits Reg.phyPowerMgmt 0x00000001

def zeroMulticastTable : Driver Unit := each (fun i => writeReg (Reg.mtaBase + i * 4) 0) (List.range 128)

def writePhy (reg : BitVec 32) (value : BitVec 16) : Driver Bool := do
  writeReg Reg.mdic (value.setWidth 32 ||| (reg <<< mdicRegaddShift) ||| mdicOpWrite)
  match ← pollReg Reg.mdic (fun mdic => mdic &&& mdicReady ≠ 0) 10 100 with
  | some mdic => return mdic &&& mdicError = 0
  | none => do
    print (.mdicWriteTimeout reg)
    return false

def readPhy (reg : BitVec 32) : Driver (BitVec 16) := do
  writeReg Reg.mdic ((reg <<< mdicRegaddShift) ||| mdicOpRead)
  match ← pollReg Reg.mdic (fun mdic => mdic &&& mdicReady ≠ 0) 10 100 with
  | some mdic =>
    if mdic &&& mdicError ≠ 0 then do
      print (.mdicReadError reg)
      return 0
    else return (mdic &&& mdicDataMask).setWidth 16
  | none => do
    print (.mdicReadTimeout reg)
    return 0

def advertise : Driver Unit := do
  let _ ← writePhy phyAnar anarAll
  let _ ← writePhy phyGbcr gbcr1000Fd
  let _ ← writePhy phyBmcr (bmcrAne ||| bmcrRestartAn)
  print .phyInitialised

/-- A PHY that does not come out of its reset is not an error. -/
def waitPhyReset : Driver (Option Unit) :=
  attempts (do
    let bmcr ← readPhy phyBmcr
    if bmcr &&& bmcrReset = 0 then return some ()
    else do
      sleep 1000
      return none) 100

def initPhy : Driver Bool := do
  let written ← writePhy phyBmcr bmcrReset
  if !written then do
    print .phyResetFailed
    return false
  else do
    let _ ← waitPhyReset
    advertise
    return true

def readMacAddress : Driver (List (BitVec 8)) := do
  let ral ← readReg Reg.ral0
  let rah ← readReg Reg.rah0
  let mac := [ral.setWidth 8,(ral >>> 8).setWidth 8,(ral >>> 16).setWidth 8,(ral >>> 24).setWidth 8,
    rah.setWidth 8,(rah >>> 8).setWidth 8]
  print (.mac mac)
  return mac

/-- The driver object: whether BAR0 is mapped, the rings with their indices, the address read. -/
structure Object where
  opened : Bool
  rx : I210Receive.State
  tx : I210Transmit.State
  mac : List (BitVec 8)

def ringBytes (count : Nat) : Nat := count * 16

def programRx (p : Params) (rxBase : BitVec 64) : Driver Unit := do
  each (fun i => storeRx i (I210Receive.slotAddr p i) 0) (List.range p.numRxDesc)
  writeReg Reg.rdbal0 (rxBase.setWidth 32)
  writeReg Reg.rdbah0 ((rxBase >>> 32).setWidth 32)
  writeReg Reg.rdlen0 (BitVec.ofNat 32 (ringBytes p.numRxDesc))
  writeReg Reg.srrctl0
    ((BitVec.ofNat 32 (p.buffSize / 1024) <<< srrctlBsizepacketShift) ||| srrctlDesctypeAdvOne ||| srrctlDropEn)

def enableRx (p : Params) : Driver (Option (BitVec 32)) := do
  writeReg Reg.rctl (rctlRxen ||| rctlBam ||| rctlSecrc ||| rctlBsize p)
  writeReg Reg.rxdctl0 0
  writeReg Reg.rdt0 0
  writeReg Reg.rxdctl0 ((8#32 <<< 0) ||| (4#32 <<< 8) ||| (0#32 <<< 16) ||| rxdctlEnable)
  pollReg Reg.rxdctl0 (fun rxdctl => rxdctl &&& rxdctlEnable ≠ 0) 1000 100

def startRx (rdt : BitVec 32) : Driver Unit := do
  writeReg Reg.rdt0 rdt
  let dvmolr ← readReg Reg.dvmolr0
  writeReg Reg.dvmolr0 (dvmolr ||| dvmolrStrcrc)
  print .rxInitialised

def initRx (p : Params) (rx : I210Receive.State) : Driver (Bool × I210Receive.State) := do
  match ← allocate .rxRing (ringBytes p.numRxDesc) with
  | none => do
    print .rxRingFailed
    return (false,rx)
  | some rxBase => do
    match ← allocate .rxBuffer (p.numRxDesc * p.buffSize) with
    | none => do
      print .rxBufferFailed
      return (false,rx)
    | some _ => do
      programRx p rxBase
      let rx := {rx with ring := I210Receive.initRing p rx.ring}
      match ← enableRx p with
      | none => do
        let rxdctl ← readReg Reg.rxdctl0
        print (.rxEnableTimeout rxdctl)
        return (false,rx)
      | some _ => do
        let rx := {rx with rxTail := 0, rdt := BitVec.ofNat 32 (p.numRxDesc - 1)}
        startRx rx.rdt
        return (true,rx)

def programTx (p : Params) (txBase : BitVec 64) : Driver Unit := do
  writeReg Reg.tdbal0 (txBase.setWidth 32)
  writeReg Reg.tdbah0 ((txBase >>> 32).setWidth 32)
  writeReg Reg.tdlen0 (BitVec.ofNat 32 (ringBytes p.numTxDesc))

def enableTx : Driver (Option (BitVec 32)) := do
  writeReg Reg.txdctl0 0
  let txdctl ← readReg Reg.txdctl0
  writeReg Reg.txdctl0 (txdctl ||| txdctlEnable)
  pollReg Reg.txdctl0 (fun txdctl => txdctl &&& txdctlEnable ≠ 0) 1000 100

def startTx : Driver Unit := do
  writeReg Reg.tipg tipgDefault
  writeReg Reg.tctl (tctlEn ||| tctlPsp ||| tctlCtIeee ||| tctlBstDef ||| tctlRtlc)
  print .txInitialised

def initTx (p : Params) (tx : I210Transmit.State) : Driver (Bool × I210Transmit.State) := do
  match ← allocate .txRing (ringBytes p.numTxDesc) with
  | none => do
    print .txRingFailed
    return (false,tx)
  | some txBase => do
    match ← allocate .txBuffer (p.numTxDesc * p.buffSize) with
    | none => do
      print .txBufferFailed
      return (false,tx)
    | some _ => do
      programTx p txBase
      match ← enableTx with
      | none => do
        print .txEnableTimeout
        return (false,tx)
      | some _ => do
        startTx
        return (true,{tx with txTail := 0, txCleanHead := 0, txInFlight := 0})

def isLinkUp : Driver Bool := do
  let status ← readReg Reg.status
  return status &&& statusLu ≠ 0

def linkSpeedMbps : Driver Nat := do
  let status ← readReg Reg.status
  return [10,100,1000,1000].getD ((status &&& statusSpeedMask) >>> statusSpeedShift).toNat 0

def warnIf (bad : Bool) (what : Checked) (value : BitVec 32) (expected : Expected) (warnings : Nat) : Driver Nat :=
  if bad then do
    print (.warn what value expected)
    return warnings + 1
  else return warnings

def check (what : Checked) (value mask : BitVec 32) (expectClear : Bool) (warnings : Nat) : Driver Nat :=
  let bitSet := decide (value &&& mask ≠ 0)
  warnIf (bitSet = expectClear) what value (if expectClear then .clear mask else .set mask) warnings

def readEeeAdvertisement : Driver (BitVec 16) := do
  let _ ← writePhy 13 7
  let _ ← writePhy 14 60
  let _ ← writePhy 13 (0x4000 ||| 7)
  let eeeAdv ← readPhy 14
  let _ ← writePhy 13 0
  return eeeAdv

def verifyLowLatencyConfig : Driver Unit := do
  let eeer ← readReg Reg.eeer
  let ipcnfg ← readReg Reg.ipcnfg
  let dmacr ← readReg Reg.dmacr
  let pciemisc ← readReg Reg.pciemisc
  let ctrlExt ← readReg Reg.ctrlExt
  let tqavctrl ← readReg Reg.tqavctrl
  let rxdctl ← readReg Reg.rxdctl0
  let txdctl ← readReg Reg.txdctl0
  let eitr ← readReg Reg.eitr0
  let warnings ← check .eeer eeer 0x00070000 true 0
  let warnings ← check .ipcnfg ipcnfg 0x0000000C true warnings
  let eeeAdv ← readEeeAdvertisement
  let warnings ← warnIf (eeeAdv &&& 0x0006 ≠ 0) .phyEee (eeeAdv.setWidth 32) (.value 0) warnings
  let warnings ← check .dmacr dmacr 0x80000000 true warnings
  let warnings ← check .pciemisc pciemisc 0x00000080 true warnings
  let warnings ← check .ctrlExt ctrlExt 0x00100000 true warnings
  let warnings ← check .ctrlExt ctrlExt 0x00200000 true warnings
  let warnings ← check .tqavctrl tqavctrl 0x00000001 true warnings
  let ctrl ← readReg Reg.ctrl
  let warnings ← check .ctrl ctrl ctrlRfce true warnings
  let warnings ← check .ctrl ctrl ctrlTfce true warnings
  let warnings ← warnIf (eitr ≠ 0xFFFF ∧ eitr ≠ 0xFFFC) .eitr0 eitr (.value 0xFFFC) warnings
  let dvmolr ← readReg Reg.dvmolr0
  let warnings ← check .dvmolr0 dvmolr 0x80000000 false warnings
  let warnings ← check .rxdctl0 rxdctl rxdctlEnable false warnings
  let warnings ← check .txdctl0 txdctl txdctlEnable false warnings
  print (if warnings = 0 then .verified else .warnings warnings)

def setLinkUp : Driver Unit := do
  let ctrl ← readReg Reg.ctrl
  writeReg Reg.ctrl ((ctrl ||| ctrlSlu) &&& ~~~(ctrlFrcspd ||| ctrlFrcdplx ||| ctrlRfce ||| ctrlTfce))

def pollLink : Driver (Option Nat) :=
  attempts (do
    let up ← isLinkUp
    if up then do
      let speed ← linkSpeedMbps
      return some speed
    else do
      sleep 1000000
      return none) 5

/-- A link that stays down is not an error either. -/
def waitLink : Driver Unit := do
  match ← pollLink with
  | some speed => print (.linkUp speed)
  | none => print .linkNotUp

/-- An `if` without an `else`; `if constexpr` where the mode decides. -/
def initRings (p : Params) (mode : DriverMode) (object : Object) : Driver (Bool × Object) := do
  let received ← given mode.hasRx (initRx p object.rx) (true,object.rx)
  if !received.1 then return (false,{object with rx := received.2})
  else do
    let sent ← given mode.hasTx (initTx p object.tx) (true,object.tx)
    return (sent.1,{object with rx := received.2, tx := sent.2})

def bringUp (p : Params) (mode : DriverMode) (object : Object) : Driver (Bool × Object) := do
  let phy ← initPhy
  if !phy then return (false,object)
  else do
    setLinkUp
    let rings ← initRings p mode object
    if !rings.1 then return (false,rings.2)
    else do
      waitLink
      verifyLowLatencyConfig
      return (true,rings.2)

def init (p : Params) (mode : DriverMode) (object : Object) : Driver (Bool × Object) := do
  let opened ← (ask Call.openBar : Driver Bool)
  if !opened then return (false,object)
  else do
    (ask Call.disableASPM : Driver Unit)
    reset
    disableInterrupts
    disableEEE
    clearPhyLinkDown
    zeroMulticastTable
    let mac ← readMacAddress
    bringUp p mode {object with opened := true, mac := mac}

def shutdown (mode : DriverMode) (object : Object) : Driver Unit :=
  if !object.opened then .done ()
  else do
    given mode.hasRx (clearBits Reg.rctl rctlRxen) ()
    given mode.hasTx (clearBits Reg.tctl tctlEn) ()
    disableInterrupts

section Waiting

def slept : Call → Nat
  | .sleep microseconds => microseconds
  | _ => 0

theorem costs_readReg (offset : Nat) : Costs slept (readReg offset) 0 := costs_ask _

theorem costs_writeReg (offset : Nat) (value : BitVec 32) : Costs slept (writeReg offset value) 0 := costs_ask _

theorem costs_sleep (microseconds : Nat) : Costs slept (sleep microseconds) microseconds := costs_ask _

theorem costs_print (report : Report) : Costs slept (print report) 0 := costs_ask _

theorem costs_allocate (region : Region) (size : Nat) : Costs slept (allocate region size) 0 := costs_ask _

private theorem costs_storeRx (slot : Nat) (pktAddr hdrAddr : BitVec 64) :
    Costs slept (storeRx slot pktAddr hdrAddr) 0 := costs_ask _

theorem costs_pollReg (offset : Nat) (test : BitVec 32 → Bool) (pause turns : Nat) :
    Costs slept (pollReg offset test pause turns) (turns * pause) := by
  apply Costs.attempts
  apply (costs_readReg offset).bind_free
  intro value
  split
  · exact (costs_done _).mono (Nat.zero_le _)
  · exact (costs_sleep pause).bind (Nat.le_refl _) (fun _ => (costs_done _).mono (Nat.zero_le _))

theorem costs_clearBits (offset : Nat) (mask : BitVec 32) : Costs slept (clearBits offset mask) 0 :=
  (costs_readReg offset).bind_free (fun _ => costs_writeReg offset _)

private theorem costs_reset : Costs slept reset 1005000 := by
  refine (costs_readReg _).bind_free (fun _ => ?_)
  refine (costs_writeReg _ _).bind_free (fun _ => ?_)
  refine (costs_sleep 5000).bind (by decide) (fun _ => ?_)
  exact (costs_pollReg _ _ _ _).bind (by decide) (fun _ => costs_print _)

private theorem costs_disableInterrupts : Costs slept disableInterrupts 0 := by
  refine (costs_writeReg _ _).bind_free (fun _ => ?_)
  refine (costs_writeReg _ _).bind_free (fun _ => ?_)
  refine (costs_readReg _).bind_free (fun _ => ?_)
  refine (costs_readReg _).bind_free (fun _ => ?_)
  exact (Costs.each (fun i => costs_writeReg _ _) (List.range 5)).bind_free (fun _ => costs_writeReg _ _)

private theorem costs_disableEEE : Costs slept disableEEE 0 := by
  refine (costs_clearBits _ _).bind_free (fun _ => ?_)
  refine (costs_clearBits _ _).bind_free (fun _ => ?_)
  refine (costs_writeReg _ _).bind_free (fun _ => ?_)
  refine (costs_writeReg _ _).bind_free (fun _ => ?_)
  refine (costs_clearBits _ _).bind_free (fun _ => ?_)
  exact (costs_clearBits _ _).bind_free (fun _ => costs_print _)

private theorem costs_zeroMulticastTable : Costs slept zeroMulticastTable 0 :=
  (Costs.each (fun _ => costs_writeReg _ _) _).mono (Nat.mul_zero _).le

theorem costs_writePhy (reg : BitVec 32) (value : BitVec 16) : Costs slept (writePhy reg value) 1000 := by
  refine (costs_writeReg _ _).bind_free (fun _ => ?_)
  refine (costs_pollReg _ _ _ _).bind (by decide) (fun answer => ?_)
  cases answer with
  | some mdic => exact costs_done _
  | none => exact (costs_print _).bind_free (fun _ => costs_done _)

private theorem costs_readPhy (reg : BitVec 32) : Costs slept (readPhy reg) 1000 := by
  refine (costs_writeReg _ _).bind_free (fun _ => ?_)
  refine (costs_pollReg _ _ _ _).bind (by decide) (fun answer => ?_)
  cases answer with
  | some mdic =>
    dsimp only
    split
    · exact (costs_print _).bind_free (fun _ => costs_done _)
    · exact costs_done _
  | none => exact (costs_print _).bind_free (fun _ => costs_done _)

private theorem costs_advertise : Costs slept advertise 3000 := by
  refine (costs_writePhy _ _).bind (by decide) (fun _ => ?_)
  refine (costs_writePhy _ _).bind (by decide) (fun _ => ?_)
  exact (costs_writePhy _ _).bind (by decide) (fun _ => costs_print _)

private theorem costs_waitPhyReset : Costs slept waitPhyReset 200000 := by
  change Costs slept waitPhyReset (100 * 2000)
  apply Costs.attempts
  refine (costs_readPhy _).bind (by decide) (fun bmcr => ?_)
  split
  · exact (costs_done _).mono (Nat.zero_le _)
  · exact (costs_sleep 1000).bind (by decide) (fun _ => costs_done _)

private theorem costs_initPhy : Costs slept initPhy 204000 := by
  refine (costs_writePhy _ _).bind (by decide) (fun written => ?_)
  cases written with
  | false => exact (costs_print _).bind_free (fun _ => (costs_done _).mono (Nat.zero_le _))
  | true =>
    refine costs_waitPhyReset.bind (by decide) (fun _ => ?_)
    exact costs_advertise.bind (by decide) (fun _ => costs_done _)

private theorem costs_readMacAddress : Costs slept readMacAddress 0 := by
  refine (costs_readReg _).bind_free (fun _ => ?_)
  refine (costs_readReg _).bind_free (fun _ => ?_)
  exact (costs_print _).bind_free (fun _ => costs_done _)

private theorem costs_programRx (p : Params) (rxBase : BitVec 64) : Costs slept (programRx p rxBase) 0 := by
  refine ((Costs.each (fun i => costs_storeRx _ _ _) _).mono (Nat.mul_zero _).le).bind_free (fun _ => ?_)
  refine (costs_writeReg _ _).bind_free (fun _ => ?_)
  refine (costs_writeReg _ _).bind_free (fun _ => ?_)
  exact (costs_writeReg _ _).bind_free (fun _ => costs_writeReg _ _)

private theorem costs_enableRx (p : Params) : Costs slept (enableRx p) 100000 := by
  refine (costs_writeReg _ _).bind_free (fun _ => ?_)
  refine (costs_writeReg _ _).bind_free (fun _ => ?_)
  refine (costs_writeReg _ _).bind_free (fun _ => ?_)
  exact (costs_writeReg _ _).bind_free (fun _ => costs_pollReg _ _ _ _)

private theorem costs_startRx (rdt : BitVec 32) : Costs slept (startRx rdt) 0 := by
  refine (costs_writeReg _ _).bind_free (fun _ => ?_)
  refine (costs_readReg _).bind_free (fun _ => ?_)
  exact (costs_writeReg _ _).bind_free (fun _ => costs_print _)

private theorem costs_initRx (p : Params) (rx : I210Receive.State) : Costs slept (initRx p rx) 100000 := by
  refine (costs_allocate _ _).bind_free (fun base => ?_)
  cases base with
  | none => exact (costs_print _).bind_free (fun _ => (costs_done _).mono (Nat.zero_le _))
  | some rxBase =>
    refine (costs_allocate _ _).bind_free (fun buffer => ?_)
    cases buffer with
    | none => exact (costs_print _).bind_free (fun _ => (costs_done _).mono (Nat.zero_le _))
    | some _ =>
      refine (costs_programRx p rxBase).bind_free (fun _ => ?_)
      refine (costs_enableRx p).bind (Nat.le_refl _) (fun enabled => ?_)
      cases enabled with
      | none =>
        refine (costs_readReg _).bind_free (fun _ => ?_)
        exact (costs_print _).bind_free (fun _ => costs_done _)
      | some _ => exact (costs_startRx _).bind_free (fun _ => costs_done _)

private theorem costs_programTx (p : Params) (txBase : BitVec 64) : Costs slept (programTx p txBase) 0 := by
  refine (costs_writeReg _ _).bind_free (fun _ => ?_)
  exact (costs_writeReg _ _).bind_free (fun _ => costs_writeReg _ _)

private theorem costs_enableTx : Costs slept enableTx 100000 := by
  refine (costs_writeReg _ _).bind_free (fun _ => ?_)
  refine (costs_readReg _).bind_free (fun _ => ?_)
  exact (costs_writeReg _ _).bind_free (fun _ => costs_pollReg _ _ _ _)

private theorem costs_startTx : Costs slept startTx 0 := by
  refine (costs_writeReg _ _).bind_free (fun _ => ?_)
  exact (costs_writeReg _ _).bind_free (fun _ => costs_print _)

private theorem costs_initTx (p : Params) (tx : I210Transmit.State) : Costs slept (initTx p tx) 100000 := by
  refine (costs_allocate _ _).bind_free (fun base => ?_)
  cases base with
  | none => exact (costs_print _).bind_free (fun _ => (costs_done _).mono (Nat.zero_le _))
  | some txBase =>
    refine (costs_allocate _ _).bind_free (fun buffer => ?_)
    cases buffer with
    | none => exact (costs_print _).bind_free (fun _ => (costs_done _).mono (Nat.zero_le _))
    | some _ =>
      refine (costs_programTx p txBase).bind_free (fun _ => ?_)
      refine costs_enableTx.bind (Nat.le_refl _) (fun enabled => ?_)
      cases enabled with
      | none => exact (costs_print _).bind_free (fun _ => costs_done _)
      | some _ => exact costs_startTx.bind_free (fun _ => costs_done _)

private theorem costs_initRings (p : Params) (mode : DriverMode) (object : Object) :
    Costs slept (initRings p mode object) 200000 := by
  refine (costs_initRx p object.rx).given.bind (by decide) (fun received => ?_)
  split
  · exact (costs_done _).mono (Nat.zero_le _)
  · exact (costs_initTx p object.tx).given.bind (by decide) (fun _ => costs_done _)

private theorem costs_pollLink : Costs slept pollLink 5000000 := by
  change Costs slept pollLink (5 * 1000000)
  apply Costs.attempts
  refine Costs.bind_free ((costs_readReg _).bind_free (fun _ => costs_done _)) (fun up => ?_)
  split
  · refine Costs.bind_free ((costs_readReg _).bind_free (fun _ => costs_done _)) (fun speed => ?_)
    exact (costs_done _).mono (Nat.zero_le _)
  · exact (costs_sleep _).bind (by decide) (fun _ => costs_done _)

private theorem costs_waitLink : Costs slept waitLink 5000000 := by
  refine costs_pollLink.bind (Nat.le_refl _) (fun up => ?_)
  cases up with
  | some speed => exact costs_print _
  | none => exact costs_print _

theorem costs_warnIf (bad : Bool) (what : Checked) (value : BitVec 32) (expected : Expected) (warnings : Nat) :
    Costs slept (warnIf bad what value expected warnings) 0 := by
  unfold warnIf
  split
  · exact (costs_print _).bind_free (fun _ => costs_done _)
  · exact costs_done _

private theorem costs_readEeeAdvertisement : Costs slept readEeeAdvertisement 5000 := by
  refine (costs_writePhy _ _).bind (by decide) (fun _ => ?_)
  refine (costs_writePhy _ _).bind (by decide) (fun _ => ?_)
  refine (costs_writePhy _ _).bind (by decide) (fun _ => ?_)
  refine (costs_readPhy _).bind (by decide) (fun _ => ?_)
  exact (costs_writePhy _ _).bind (by decide) (fun _ => costs_done _)

private theorem costs_verifyLowLatencyConfig : Costs slept verifyLowLatencyConfig 5000 := by
  iterate 9 refine (costs_readReg _).bind_free (fun _ => ?_)
  iterate 2 refine (costs_warnIf _ _ _ _ _).bind_free (fun _ => ?_)
  refine costs_readEeeAdvertisement.bind (by decide) (fun _ => ?_)
  iterate 6 refine (costs_warnIf _ _ _ _ _).bind_free (fun _ => ?_)
  refine (costs_readReg _).bind_free (fun _ => ?_)
  iterate 3 refine (costs_warnIf _ _ _ _ _).bind_free (fun _ => ?_)
  refine (costs_readReg _).bind_free (fun _ => ?_)
  iterate 3 refine (costs_warnIf _ _ _ _ _).bind_free (fun _ => ?_)
  exact costs_print _

private theorem costs_bringUp (p : Params) (mode : DriverMode) (object : Object) :
    Costs slept (bringUp p mode object) 5409000 := by
  refine costs_initPhy.bind (by decide) (fun phy => ?_)
  cases phy with
  | false => exact (costs_done _).mono (Nat.zero_le _)
  | true =>
    refine Costs.bind_free ((costs_readReg _).bind_free (fun _ => costs_writeReg _ _)) (fun _ => ?_)
    refine (costs_initRings p mode object).bind (by decide) (fun rings => ?_)
    split
    · exact (costs_done _).mono (Nat.zero_le _)
    · refine costs_waitLink.bind (by decide) (fun _ => ?_)
      exact costs_verifyLowLatencyConfig.bind (by decide) (fun _ => costs_done _)

/-- Whatever the card answers, a run of `init` sleeps less than 6.5 seconds in all. A run is one
in which `disableASPM` has returned. -/
theorem init_wait_bounded (p : Params) (mode : DriverMode) (object : Object) {trace : List (Exchange Call Reply)}
    {result : Bool × Object} (ran : Runs (init p mode object) trace result) : total slept trace ≤ 6414000 := by
  suffices costs : Costs slept (init p mode object) 6414000 from costs trace result ran
  refine Costs.bind_free (costs_ask Call.openBar) (fun opened => ?_)
  cases opened with
  | false => exact (costs_done _).mono (Nat.zero_le _)
  | true =>
    refine Costs.bind_free (costs_ask Call.disableASPM) (fun _ => ?_)
    refine costs_reset.bind (by decide) (fun _ => ?_)
    refine costs_disableInterrupts.bind_free (fun _ => ?_)
    refine costs_disableEEE.bind_free (fun _ => ?_)
    refine (costs_clearBits _ _).bind_free (fun _ => ?_)
    refine costs_zeroMulticastTable.bind_free (fun _ => ?_)
    refine costs_readMacAddress.bind_free (fun _ => ?_)
    exact costs_bringUp p mode _

section Lab

def deafCard (_ : Unit) : (request : Call) → Reply request × Unit
  | .openBar => (true,())
  | .readReg _ => (0#32,())
  | .allocate _ _ => (none,())
  | .closeBar | .disableASPM | .writeReg _ _ | .storeRx _ _ _ | .sleep _ | .free _ | .print _ => ((),())

def labObject : Object :=
  ⟨false,⟨fun _ => 0,fun _ => [],0,0,0,false,0,[],[],0⟩,I210Transmit.start (fun _ => 0),List.replicate 6 0⟩

theorem init_wait_bounded_deaf :
    (exec deafCard () (init labCard .RxTx labObject)).2.1 = false ∧
      total slept (exec deafCard () (init labCard .RxTx labObject)).1 ≤ 6414000 :=
  ⟨by decide +kernel,init_wait_bounded labCard .RxTx labObject (runs_exec deafCard () _)⟩

end Lab

end Waiting

end Abtrda3.I210Init
