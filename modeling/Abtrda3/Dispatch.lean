import Abtrda3.NicTuner

/-! The process: the command line, the configuration, the tuner and the run-time set-up, the
choice of a transport, the objects it is brought up with and the loop that runs on them. What
each call does is any answer to it. A monitor keeps the objects alive and how far each of
them has been brought up, and refuses a call that comes too early or too late. -/
namespace Abtrda3.Dispatch
open Abtrda3.NicIrqs (leadingNumber strstr)
open Abtrda3.NicTuner (NicTunerMode)
open Abtrda3.Semantics.Interaction Abtrda3.Semantics.Interaction.Program
open Abtrda3.Semantics.Machine (run along_true)

inductive RunMode
  | Server
  | Client
  | TxGen
  | RxSink
  | SingleRecorder
  deriving DecidableEq, Repr

def runModeName : RunMode → String
  | .Server => "Server"
  | .Client => "Client"
  | .TxGen => "TxGen"
  | .RxSink => "RxSink"
  | .SingleRecorder => "SingleRecorder"

/-- Setting both makes `loadRole` throw. -/
structure RoleConfig where
  transport : String
  interface : String
  driver : String
  cpuCore : Int
  xdpQueueId : BitVec 32
  dpdkBifurcated : Bool
  dpdkAfxdpPmd : Bool
  exclusive : (dpdkBifurcated && dpdkAfxdpPmd) = false

structure TestConfig where
  etherType : BitVec 16
  watchdogSec : Int
  nicTunerMode : NicTunerMode
  server : RoleConfig
  client : RoleConfig
  clientCount : BitVec 32
  mmapBlockSize : BitVec 32
  mmapBlockNumber : BitVec 32
  afxdpEnableDeferral : Bool
  afxdpEnableIrqSuspend : Bool
  recHotPathCore : Int
  recRxCore : Int
  recRecorderCore : Int
  recDurationSec : BitVec 64

inductive Direction
  | TxOnly
  | RxOnly
  | RxTx
  deriving DecidableEq, Repr

/-- An object of a transport: its type and what its constructor is given. -/
inductive Port
  | packetMmapTx (interface : String) (blockSize blockNumber : BitVec 32) (protocol : BitVec 16)
  | packetMmapRx (interface : String) (blockSize blockNumber : BitVec 32) (protocol : BitVec 16)
  | afxdp (direction : Direction) (needWakeup : Bool) (interface : String) (queueId : BitVec 32)
  | dpdk (direction : Direction) (interface : String) (lcore : Int) (driver : String)
  | verbs (direction : Direction) (interface : String)
  | efVi (direction : Direction) (interface : String)
  | i210 (interface : String) (driver : String)
  deriving DecidableEq, Repr

namespace Port

def kName : Port → String
  | .packetMmapTx _ _ _ _ | .packetMmapRx _ _ _ _ => "packet_mmap"
  | .afxdp _ _ _ _ => "af_xdp"
  | .dpdk _ _ _ _ => "dpdk"
  | .verbs _ _ => "verbs"
  | .efVi _ _ => "ef_vi"
  | .i210 _ _ => "intel_i210"

def interface : Port → String
  | .packetMmapTx interface _ _ _ | .packetMmapRx interface _ _ _ => interface
  | .afxdp _ _ interface _ | .dpdk _ interface _ _ => interface
  | .verbs _ interface | .efVi _ interface | .i210 interface _ => interface

def sends : Port → Bool
  | .packetMmapTx _ _ _ _ | .i210 _ _ => true
  | .packetMmapRx _ _ _ _ => false
  | .afxdp direction _ _ _ | .dpdk direction _ _ _ | .verbs direction _ | .efVi direction _ => direction ≠ .RxOnly

def receives : Port → Bool
  | .packetMmapRx _ _ _ _ | .i210 _ _ => true
  | .packetMmapTx _ _ _ _ => false
  | .afxdp direction _ _ _ | .dpdk direction _ _ _ | .verbs direction _ | .efVi direction _ => direction ≠ .TxOnly

def opens : Port → Bool
  | .packetMmapTx _ _ _ _ | .packetMmapRx _ _ _ _ => true
  | _ => false

def registers : Port → Bool
  | .dpdk _ _ _ _ => true
  | _ => false

end Port

inductive Slot
  | nic
  | tx
  | rx
  deriving DecidableEq, Repr

inductive Knob
  | linkSpeeds1G
  | symmetricQueues
  | devargs (text : String)
  | txInlineReuse
  | nbRxDesc (n : BitVec 16)
  deriving DecidableEq, Repr

inductive InitArguments
  | afxdp (deferral irqSuspend : Bool)
  | dpdk (doWaitLink bifurcated afxdpPMD applyDeferral : Bool)
  | plain
  deriving DecidableEq, Repr

def InitArguments.suit : InitArguments → Port → Bool
  | .afxdp _ _, .afxdp _ _ _ _ => true
  | .dpdk _ _ _ _, .dpdk _ _ _ _ => true
  | .plain, .verbs _ _ | .plain, .efVi _ _ | .plain, .i210 _ _ => true
  | _, _ => false

inductive Job
  | server (sending receiving : Slot)
  | client (sending receiving : Slot)
  | txgen (sending : Slot) (count : BitVec 32)
  | rxsink (receiving : Slot)
  | bench (sending receiving : Slot) (durationSec : BitVec 64)
  deriving DecidableEq, Repr

inductive Call
  | print (text : String)
  | loadConfig (path : String)
  | tune (interface : String) (cpuCore : Int) (mode : NicTunerMode)
  | setup (cpuCore watchdogSec : Int) (roleName : String)
  | ensureHugepages (pages : Nat)
  | construct (slot : Slot) (port : Port)
  | destroy (slot : Slot)
  | boundToI40e (interface : String)
  | resolveBdf (interface : String)
  | reportItr (bdf interface tag : String)
  | i40eSetNoItr (bdf interface : String)
  | igcDisableEee (bdf interface : String)
  | setCoalescingZero (interface : String)
  | knob (slot : Slot) (knob : Knob)
  | prepare (slot : Slot) (bifurcated afxdpPMD : Bool)
  | init (slot : Slot) (arguments : InitArguments)
  | waitLink (slot : Slot)
  | loop (job : Job)

/-- `construct` and `loop` answer whether they returned or threw; an `init` may also end the
process. -/
abbrev Reply : Call → Type
  | .loadConfig _ => Except String TestConfig
  | .ensureHugepages _ | .construct _ _ | .boundToI40e _ | .setCoalescingZero _ | .prepare _ _ _ | .waitLink _ |
    .loop _ => Bool
  | .resolveBdf _ => String
  | .init _ _ => Option Bool
  | .print _ | .tune _ _ _ | .setup _ _ _ | .destroy _ | .reportItr _ _ _ | .i40eSetNoItr _ _ | .igcDisableEee _ _ |
    .knob _ _ =>
    Unit

abbrev Driver := Program Call Reply

/-- How the process ends: with a status, or by an exception nobody catches or an `exit`. -/
inductive Exit
  | status (code : Nat)
  | ended
  deriving DecidableEq, Repr

def print (text : String) : Driver Unit := ask (Call.print text)

section CommandLine

structure CliArgs where
  configPath : String
  runMode : RunMode
  useServerRole : Bool
  countOverride : Int
  valid : Bool

def CliArgs.initial : CliArgs := ⟨"abtrda3_test.toml",.Server,false,-1,false⟩

/-- The flag `haveMode` is kept in `valid` from the start; `beyond` is what `atoll` makes of a
number that is no `long long`. -/
def atoll (beyond : Int → Int) (text : List Char) : Int :=
  let n := leadingNumber text
  if -2^63 ≤ n ∧ n < 2^63 then n else beyond n

def setMode (a : CliArgs) (mode : RunMode) (server : Bool) : CliArgs :=
  {a with runMode := mode, useServerRole := server, valid := true}

def parseFlag (a : CliArgs) : String → CliArgs
  | "--server" => setMode a .Server true
  | "--client" => setMode a .Client false
  | "--txgen" => setMode a .TxGen false
  | "--rxsink" => setMode a .RxSink true
  | "--single" => setMode a .SingleRecorder false
  | _ => a

def parseArgs (beyond : Int → Int) : CliArgs → List String → CliArgs
  | a, [] => a
  | a, [arg] => parseFlag a arg
  | a, arg::value::rest =>
    if arg = "--config" then parseArgs beyond {a with configPath := value} rest
    else if arg = "--count" then parseArgs beyond {a with countOverride := atoll beyond value.toList} rest
    else parseArgs beyond (parseFlag a arg) (value::rest)

def parseCli (beyond : Int → Int) (args : List String) : CliArgs := parseArgs beyond CliArgs.initial args

def usage (argv0 : String) : String :=
  "Usage:\n  " ++ argv0 ++ " --server  [--config <file>]\n  " ++
  argv0 ++ " --client  [--config <file>]   (RTT; time-bounded via [client].duration_sec)\n  " ++
  argv0 ++ " --txgen   [--count <N>] [--config <file>]\n  " ++
  argv0 ++ " --rxsink  [--config <file>]\n  " ++
  argv0 ++ " --single  [--config <file>]   (single-process one-way Tx->Rx latency)"

end CommandLine

section Lifetimes

/-- An object lives as long as the block that made it, unless the process ends before. -/
def owning (slot : Slot) (port : Port) (body : Driver Exit) : Driver Exit := do
  let made ← (ask (Call.construct slot port) : Driver Bool)
  if made then do
    match ← body with
    | .ended => return .ended
    | .status code => do
      (ask (Call.destroy slot) : Driver Unit)
      return .status code
  else return .ended

def bringUp (init : Driver (Option Bool)) (complaint : String) (body : Driver Exit) : Driver Exit := do
  match ← init with
  | some true => body
  | some false => do
    print complaint
    return .status 1
  | none => return .ended

def runLoop (job : Job) : Driver Exit := do
  let returned ← (ask (Call.loop job) : Driver Bool)
  return if returned then .status 0 else .ended

end Lifetimes

section Transports

structure Traits where
  kName : String
  kSingleCapable : Bool
  preflight : Driver Bool
  makeTx : TestConfig → RoleConfig → Port
  makeRx : TestConfig → RoleConfig → Port
  -- None for the paired transport.
  makeRxTx : Option (TestConfig → RoleConfig → Port)
  init : Slot → TestConfig → RoleConfig → Driver (Option Bool)
  banner : RoleConfig → String → String
  withSinglePair : TestConfig → Driver Exit → Driver Exit

def basePair (kName : String) (makeSingleTx makeSingleRx : TestConfig → RoleConfig → Port)
    (init : Slot → TestConfig → RoleConfig → Driver (Option Bool)) (cfg : TestConfig) (fn : Driver Exit) : Driver Exit :=
  owning .tx (makeSingleTx cfg cfg.client) <| owning .rx (makeSingleRx cfg cfg.server) <|
    bringUp (init .tx cfg cfg.client) ("Error: Tx " ++ kName ++ " init failed on " ++ cfg.client.interface) <|
    bringUp (init .rx cfg cfg.server) ("Error: Rx " ++ kName ++ " init failed on " ++ cfg.server.interface) fn

def packetMmapTx (cfg : TestConfig) (role : RoleConfig) : Port :=
  .packetMmapTx role.interface cfg.mmapBlockSize cfg.mmapBlockNumber cfg.etherType

def packetMmapRx (cfg : TestConfig) (role : RoleConfig) : Port :=
  .packetMmapRx role.interface cfg.mmapBlockSize cfg.mmapBlockNumber cfg.etherType

def packetMmapInit (_ : Slot) (_ : TestConfig) (_ : RoleConfig) : Driver (Option Bool) := .done (some true)

def packetMmapTraits : Traits where
  kName := "packet_mmap"
  kSingleCapable := true
  preflight := .done true
  makeTx := packetMmapTx
  makeRx := packetMmapRx
  makeRxTx := none
  init := packetMmapInit
  banner role roleName := "[" ++ roleName ++ "] Transport: packet_mmap on " ++ role.interface
  withSinglePair := basePair "packet_mmap" packetMmapTx packetMmapRx packetMmapInit

def i40eApplyWritebackPolicy (bdf ifname tag : String) : Driver Unit := do
  (ask (Call.i40eSetNoItr bdf ifname) : Driver Unit)
  (ask (Call.reportItr bdf ifname tag) : Driver Unit)

def afxdpInit (slot : Slot) (cfg : TestConfig) (role : RoleConfig) : Driver (Option Bool) := do
  let isI40e ← (ask (Call.boundToI40e role.interface) : Driver Bool)
  let bdf ← given isI40e (ask (Call.resolveBdf role.interface)) ""
  given isI40e (ask (Call.reportItr bdf role.interface "AFXDP-ITR pre-bind")) ()
  match ← (ask (Call.init slot (.afxdp cfg.afxdpEnableDeferral cfg.afxdpEnableIrqSuspend)) : Driver (Option Bool)) with
  | some true => do
    let _ ← given (cfg.nicTunerMode ≠ .Off) (ask (Call.setCoalescingZero role.interface)) false
    given isI40e (i40eApplyWritebackPolicy bdf role.interface "AFXDP-ITR post-bind") ()
    return some true
  | other => return other

def afxdpPort (direction : Direction) (needWakeup : Bool) (_ : TestConfig) (role : RoleConfig) : Port :=
  .afxdp direction needWakeup role.interface role.xdpQueueId

def afxdpTraits : Traits where
  kName := "af_xdp"
  kSingleCapable := true
  preflight := .done true
  makeTx := afxdpPort .TxOnly true
  makeRx := afxdpPort .RxOnly true
  makeRxTx := some (afxdpPort .RxTx false)
  init := afxdpInit
  banner role roleName :=
    "[" ++ roleName ++ "] Transport: af_xdp on " ++ role.interface ++ " (queue " ++ toString role.xdpQueueId.toNat ++ ")"
  withSinglePair := basePair "af_xdp" (afxdpPort .TxOnly false) (afxdpPort .RxOnly true) afxdpInit

def kMlx5LatencyDevargs : String := "txq_mem_algn=0,txqs_min_inline=0,rxq_cqe_comp_en=0"

def kMlx5NbRxDesc : BitVec 16 := 64

def kSfcLatencyDevargs : String :=
  "perf_profile=low-latency,rx_datapath=ef10,tx_datapath=ef10_simple,stats_update_period_ms=0"

def kSfcNbRxDesc : BitVec 16 := 64

def setKnobs (slot : Slot) (knobs : List Knob) : Driver Unit := each (fun knob => ask (Call.knob slot knob)) knobs

def dpdkPreInit (slot : Slot) (role : RoleConfig) : Driver String := do
  let bdf ← (ask (Call.resolveBdf role.interface) : Driver String)
  given (role.driver = "igc" && !role.dpdkAfxdpPmd) (setKnobs slot [.linkSpeeds1G,.symmetricQueues]) ()
  given (strstr role.driver.toList "mlx5".toList && !role.dpdkAfxdpPmd)
    (setKnobs slot [.devargs kMlx5LatencyDevargs,.txInlineReuse,.nbRxDesc kMlx5NbRxDesc]) ()
  given (role.driver = "sfc" && !role.dpdkAfxdpPmd) (setKnobs slot [.devargs kSfcLatencyDevargs,.nbRxDesc kSfcNbRxDesc]) ()
  return bdf

def dpdkPostInitFixes (bdf : String) (role : RoleConfig) : Driver Unit := do
  given (role.driver = "i40e") (i40eApplyWritebackPolicy bdf role.interface "DPDK-ITR") ()
  given (role.driver = "igc" && !role.dpdkAfxdpPmd) (ask (Call.igcDisableEee bdf role.interface)) ()

def dpdkArguments (doWaitLink : Bool) (cfg : TestConfig) (role : RoleConfig) : InitArguments :=
  .dpdk doWaitLink role.dpdkBifurcated role.dpdkAfxdpPmd cfg.afxdpEnableDeferral

def dpdkInit (slot : Slot) (cfg : TestConfig) (role : RoleConfig) : Driver (Option Bool) := do
  let bdf ← dpdkPreInit slot role
  match ← (ask (Call.init slot (dpdkArguments true cfg role)) : Driver (Option Bool)) with
  | some true => do
    dpdkPostInitFixes bdf role
    return some true
  | other => return other

def dpdkPort (direction : Direction) (_ : TestConfig) (role : RoleConfig) : Port :=
  .dpdk direction role.interface role.cpuCore role.driver

def waitLink (slot : Slot) : Driver (Option Bool) := do
  let up ← (ask (Call.waitLink slot) : Driver Bool)
  return some up

/-- Both ports are registered before the first `init` starts EAL, and both are started before
either link is waited for. -/
def dpdkStart (cfg : TestConfig) (txBdf rxBdf : String) (fn : Driver Exit) : Driver Exit :=
  bringUp (ask (Call.init .tx (dpdkArguments false cfg cfg.client)))
    ("Error: Tx DPDK init failed on " ++ cfg.client.interface) <|
  bringUp (ask (Call.init .rx (dpdkArguments false cfg cfg.server)))
    ("Error: Rx DPDK init failed on " ++ cfg.server.interface) <| do
    dpdkPostInitFixes txBdf cfg.client
    dpdkPostInitFixes rxBdf cfg.server
    bringUp (waitLink .tx) ("Error: Tx DPDK link down on " ++ cfg.client.interface) <|
      bringUp (waitLink .rx) ("Error: Rx DPDK link down on " ++ cfg.server.interface) fn

def dpdkPrepare (cfg : TestConfig) : Driver (Option Bool) := do
  let first ← (ask (Call.prepare .tx cfg.client.dpdkBifurcated cfg.client.dpdkAfxdpPmd) : Driver Bool)
  let both ← given first (ask (Call.prepare .rx cfg.server.dpdkBifurcated cfg.server.dpdkAfxdpPmd)) false
  return some both

def dpdkPair (cfg : TestConfig) (fn : Driver Exit) : Driver Exit :=
  owning .tx (.dpdk .TxOnly cfg.client.interface cfg.recHotPathCore cfg.client.driver) <|
  owning .rx (.dpdk .RxOnly cfg.server.interface cfg.recHotPathCore cfg.server.driver) <| do
    let txBdf ← dpdkPreInit .tx cfg.client
    let rxBdf ← dpdkPreInit .rx cfg.server
    bringUp (dpdkPrepare cfg) "Error: DPDK prepare (vfio bind) failed" (dpdkStart cfg txBdf rxBdf fn)

def dpdkTraits : Traits where
  kName := "dpdk"
  kSingleCapable := true
  preflight := .done true
  makeTx := dpdkPort .TxOnly
  makeRx := dpdkPort .RxOnly
  makeRxTx := some (dpdkPort .RxTx)
  init := dpdkInit
  banner role roleName := "[" ++ roleName ++ "] Transport: dpdk on " ++ role.interface ++ " (driver=" ++ role.driver ++
    ", lcore " ++ toString role.cpuCore ++ ")"
  withSinglePair := dpdkPair

def plainInit (slot : Slot) (_ : TestConfig) (_ : RoleConfig) : Driver (Option Bool) := ask (Call.init slot .plain)

def verbsPort (direction : Direction) (_ : TestConfig) (role : RoleConfig) : Port := .verbs direction role.interface

def verbsTraits : Traits where
  kName := "verbs"
  kSingleCapable := true
  preflight := .done true
  makeTx := verbsPort .TxOnly
  makeRx := verbsPort .RxOnly
  makeRxTx := some (verbsPort .RxTx)
  init := plainInit
  banner role roleName := "[" ++ roleName ++ "] Transport: verbs on " ++ role.interface ++ " (RAW_PACKET QP)"
  withSinglePair := basePair "verbs" (verbsPort .TxOnly) (verbsPort .RxOnly) plainInit

def efViPort (direction : Direction) (_ : TestConfig) (role : RoleConfig) : Port := .efVi direction role.interface

def etherFabricTraits : Traits where
  kName := "ef_vi"
  kSingleCapable := true
  preflight := .done true
  makeTx := efViPort .TxOnly
  makeRx := efViPort .RxOnly
  makeRxTx := some (efViPort .RxTx)
  init := plainInit
  banner role roleName := "[" ++ roleName ++ "] Transport: ef_vi on " ++ role.interface ++ " (CTPIO)"
  withSinglePair := basePair "ef_vi" (efViPort .TxOnly) (efViPort .RxOnly) plainInit

def driverOf (role : RoleConfig) : String := if role.driver = "" then "igb" else role.driver

def i210Port (_ : TestConfig) (role : RoleConfig) : Port := .i210 role.interface (driverOf role)

def i210Preflight : Driver Bool := do
  let allocated ← (ask (Call.ensureHugepages 16) : Driver Bool)
  given (!allocated) (print "Error: hugepage allocation failed") ()
  return allocated

def i210Traits : Traits where
  kName := "intel_i210"
  kSingleCapable := false
  preflight := i210Preflight
  makeTx := i210Port
  makeRx := i210Port
  makeRxTx := some i210Port
  init := plainInit
  banner role roleName :=
    "[" ++ roleName ++ "] Transport: intel_i210 (PMD) on " ++ role.interface ++ " (driver=" ++ driverOf role ++ ")"
  withSinglePair := basePair "intel_i210" i210Port i210Port plainInit

end Transports

structure Build where
  dpdk : Bool
  verbs : Bool
  efVi : Bool
  i210 : Bool

def Build.transports (build : Build) : List Traits :=
  [packetMmapTraits,afxdpTraits] ++ (if build.dpdk then [dpdkTraits] else []) ++
    (if build.verbs then [verbsTraits] else []) ++
    (if build.efVi then [etherFabricTraits] else []) ++ (if build.i210 then [i210Traits] else [])

def absent (name : String) : String :=
  if name ∈ ["dpdk","verbs","ef_vi","intel_i210"] then
    "Error: transport '" ++ name ++ "' is not compiled into this binary — reconfigure with -DABTRDA3_WITH_ALL=ON " ++
      "(or the matching -DABTRDA3_WITH_DPDK/VERBS/EFVI/I210=ON) and rebuild"
  else "Error: unknown transport '" ++ name ++ "'"

def refuse (complaint : String) : Driver Exit := do
  print complaint
  return .status 1

def withTransport (build : Build) (name : String) (fn : Traits → Driver Exit) : Driver Exit :=
  match build.transports.find? (fun t => name = t.kName) with
  | some t => fn t
  | none => refuse (absent name)

def dispatchMode (sending receiving : Slot) (mode : RunMode) (count : BitVec 32) : Driver Exit :=
  match mode with
  | .Server => runLoop (.server sending receiving)
  | .Client => runLoop (.client sending receiving)
  | .TxGen => runLoop (.txgen sending count)
  | .RxSink => runLoop (.rxsink receiving)
  | .SingleRecorder => .done (.status 0)

def runOn (t : Traits) (cfg : TestConfig) (role : RoleConfig) (mode : RunMode) (port : Port) (job : Driver Exit) :
    Driver Exit :=
  owning .nic port <| bringUp (t.init .nic cfg role) ("Error: " ++ t.kName ++ " init failed on " ++ role.interface) <| do
    print (t.banner role (runModeName mode))
    job

def runPaired (t : Traits) (cfg : TestConfig) (role : RoleConfig) (mode : RunMode) (job : Driver Exit) : Driver Exit :=
  owning .tx (t.makeTx cfg role) <| owning .rx (t.makeRx cfg role) <|
    bringUp (t.init .tx cfg role) ("Error: " ++ t.kName ++ " init failed on " ++ role.interface) <|
    bringUp (t.init .rx cfg role) ("Error: " ++ t.kName ++ " init failed on " ++ role.interface) <| do
      print (t.banner role (runModeName mode))
      job

def runModes (t : Traits) (cfg : TestConfig) (role : RoleConfig) (mode : RunMode) (count : BitVec 32) : Driver Exit := do
  let ready ← t.preflight
  if ready then
    match mode with
    | .TxGen => runOn t cfg role mode (t.makeTx cfg role) (runLoop (.txgen .nic count))
    | .RxSink => runOn t cfg role mode (t.makeRx cfg role) (runLoop (.rxsink .nic))
    | .Server | .Client =>
      match t.makeRxTx with
      | none => runPaired t cfg role mode (dispatchMode .tx .rx mode count)
      | some makeRxTx => runOn t cfg role mode (makeRxTx cfg role) (dispatchMode .nic .nic mode count)
    | .SingleRecorder => return .status 0
  else return .status 1

def runSingleFor (t : Traits) (cfg : TestConfig) : Driver Exit :=
  if t.kSingleCapable then do
    let client ← t.preflight
    let both ← given client t.preflight false
    if both then t.withSinglePair cfg (runLoop (.bench .tx .rx cfg.recDurationSec)) else return .status 1
  else refuse ("Error: single_recorder: transport '" ++ t.kName ++ "' is not supported (needs two ports in one process)")

def runSingleRecorder (build : Build) (cfg : TestConfig) : Driver Exit :=
  if cfg.server.transport ≠ cfg.client.transport then
    refuse ("Error: single_recorder needs client.transport == server.transport (Tx=client port, Rx=server port); got tx='" ++
      cfg.client.transport ++ "' rx='" ++ cfg.server.transport ++ "'")
  else if cfg.recHotPathCore = cfg.recRxCore ∨ cfg.recHotPathCore = cfg.recRecorderCore ∨
      cfg.recRxCore = cfg.recRecorderCore then
    refuse ("Error: single_recorder needs three DISTINCT cores (tx=" ++ toString cfg.recHotPathCore ++ " rx=" ++
      toString cfg.recRxCore ++ " recorder=" ++ toString cfg.recRecorderCore ++ ")")
  else do
    print ("[SingleRecorder] " ++ cfg.client.transport ++ " | Tx=" ++ cfg.client.interface ++ " (core " ++
      toString cfg.recHotPathCore ++ ") Rx=" ++ cfg.server.interface ++ " (core " ++ toString cfg.recRxCore ++ ") Hist core " ++
      toString cfg.recRecorderCore ++ " duration=" ++ toString cfg.recDurationSec.toNat ++ "s")
    withTransport build cfg.client.transport (fun t => runSingleFor t cfg)

def tuneOrSay (cfg : TestConfig) (ports : List (String × Int)) : Driver Unit :=
  if cfg.nicTunerMode ≠ .Off then each (fun port => ask (Call.tune port.1 port.2 cfg.nicTunerMode)) ports
  else print "[NicTuner] Off"

def mainSingle (build : Build) (args : CliArgs) (cfg : TestConfig) : Driver Exit := do
  print ("[Config] Loaded from " ++ args.configPath ++ " — mode=SingleRecorder tx=" ++ cfg.client.interface ++ " rx=" ++
    cfg.server.interface)
  tuneOrSay cfg [(cfg.client.interface,cfg.recHotPathCore),(cfg.server.interface,cfg.recRecorderCore)]
  (ask (Call.setup cfg.recHotPathCore 0 "SingleRecorder") : Driver Unit)
  runSingleRecorder build cfg

def roleOf (args : CliArgs) (cfg : TestConfig) : RoleConfig := if args.useServerRole then cfg.server else cfg.client

def countOf (args : CliArgs) (cfg : TestConfig) : BitVec 32 :=
  if 0 ≤ args.countOverride then BitVec.ofInt 32 args.countOverride else cfg.clientCount

def mainRole (build : Build) (args : CliArgs) (cfg : TestConfig) : Driver Exit := do
  let role := roleOf args cfg
  print ("[Config] Loaded from " ++ args.configPath ++ " — role=" ++ runModeName args.runMode ++
    " transport=" ++ role.transport ++ " iface=" ++ role.interface)
  tuneOrSay cfg [(role.interface,role.cpuCore)]
  (ask (Call.setup role.cpuCore cfg.watchdogSec (runModeName args.runMode)) : Driver Unit)
  withTransport build role.transport (fun t => runModes t cfg role args.runMode (countOf args cfg))

def main (beyond : Int → Int) (build : Build) (argv0 : String) (argv : List String) : Driver Exit :=
  if argv = [] then refuse (usage argv0)
  else
    let args := parseCli beyond argv
    if args.valid then do
      match ← (ask (Call.loadConfig args.configPath) : Driver (Except String TestConfig)) with
      | .error message => refuse ("Config error: " ++ message)
      | .ok cfg => if args.runMode = .SingleRecorder then mainSingle build args cfg else mainRole build args cfg
    else refuse "Error: specify --server, --client, --txgen, --rxsink, or --single"

end Abtrda3.Dispatch
