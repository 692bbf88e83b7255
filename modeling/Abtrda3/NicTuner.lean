import Abtrda3.NicIrqs
import Abtrda3.Semantics.Interaction

/-! The NIC tuner: what its constructor asks of the system, call by call, whatever is
answered. Files are named by their paths and hold texts. A monitor keeps what was read and
what was asked for; it lets a thread be moved or boosted only if what was read of it says
that it is the one meant, and a file be written only if the tuner is to write it. -/
namespace Abtrda3.NicTuner
open Abtrda3.NicIrqs Abtrda3.Semantics.Interaction Abtrda3.Semantics.Interaction.Program Abtrda3.Semantics.Text
open Abtrda3.Semantics.Machine (run along_true)

inductive NicTunerMode
  | Off
  | NfsSafe
  | Full
  deriving DecidableEq, Repr

inductive Policy
  | fifo
  | roundRobin
  deriving DecidableEq, Repr

inductive Offload
  | gro
  | gso
  | tso
  deriving DecidableEq, Repr

/-- What is asked of the system. A directory is listed whole, and `readFile` is answered with
what one `read` returns. -/
inductive Call
  | system (command : List Char)
  | listDir (path : List Char)
  | readFile (path : List Char)
  | writeFile (path value : List Char)
  | readInterrupts
  | onlineCpus
  | socket
  | closeSocket
  | getOffload (name : List Char) (offload : Offload)
  | clearOffload (name : List Char) (offload : Offload)
  | setAffinity (pid : Int) (cpu : Nat)
  | setScheduler (pid : Int) (policy : Policy) (priority : Nat)
  | print (text : List Char)
  deriving DecidableEq

/-- A call that may fail with a message of `strerror` is answered with it. -/
abbrev Reply : Call → Type
  | .system _ => Int
  | .listDir _ => Option (List (List Char))
  | .readFile _ => Option (List Char)
  | .writeFile _ _ => Bool
  | .readInterrupts => Option (List Char)
  | .onlineCpus => Int
  | .socket => Except (List Char) Unit
  | .getOffload _ _ => Option (BitVec 32)
  | .clearOffload _ _ => Bool
  | .setAffinity _ _ => Bool
  | .setScheduler _ _ _ => Except (List Char) Unit
  | .closeSocket | .print _ => Unit

abbrev Driver := Program Call Reply

def print (text : List Char) : Driver Unit := ask (Call.print text)

def writeFile (path value : List Char) : Driver Bool := ask (Call.writeFile path value)

def listDir (path : List Char) : Driver (Option (List (List Char))) := ask (Call.listDir path)

def snprintf (size : Nat) (text : List Char) : List Char := text.take (size - 1)

/-- An `int` as "%d" prints it; it fits every buffer it is printed to but one. -/
def decimal : Int → List Char
  | .ofNat n => Nat.toDigits 10 n
  | .negSucc n => '-' :: Nat.toDigits 10 (n + 1)

/-- The text of a file: one buffer of it, without a last newline and up to the first NUL. -/
def contents : Option (List Char) → List Char
  | none => []
  | some raw =>
    let buf := raw.take 255
    cString (if buf.getLast? = some '\n' then buf.dropLast else buf)

def readFile (path : List Char) : Driver (List Char) := do
  let raw ← (ask (Call.readFile path) : Driver (Option (List Char)))
  return contents raw

def writeInt (path : List Char) (value : Int) : Driver Bool := writeFile path (snprintf 32 (decimal value))

section Paths

def procDir : List Char := "/proc".toList

def irqDir : List Char := "/proc/irq".toList

def workqueueDir : List Char := "/sys/devices/virtual/workqueue".toList

def commPath (entry : List Char) : List Char := snprintf 64 ("/proc/".toList ++ (entry ++ "/comm".toList))

def statPath (entry : List Char) : List Char := snprintf 64 ("/proc/".toList ++ (entry ++ "/stat".toList))

def cpumaskPath (entry : List Char) : List Char :=
  snprintf 256 ("/sys/devices/virtual/workqueue/".toList ++ (entry ++ "/cpumask".toList))

def governorPath (cpuCore : Int) : List Char :=
  "/sys/devices/system/cpu/cpu".toList ++ (decimal cpuCore ++ "/cpufreq/scaling_governor".toList)

def affinityPath (irq : Int) : List Char := "/proc/irq/".toList ++ (decimal irq ++ "/smp_affinity_list".toList)

def busyPollPath : List Char := "/proc/sys/net/core/busy_poll".toList

def busyReadPath : List Char := "/proc/sys/net/core/busy_read".toList

def statIntervalPath : List Char := "/proc/sys/vm/stat_interval".toList

def rtRuntimePath : List Char := "/proc/sys/kernel/sched_rt_runtime_us".toList

def watchdogPath : List Char := "/proc/sys/kernel/watchdog".toList

end Paths

structure Tuning where
  interface : List Char
  cpuCore : Int
  mode : NicTunerMode
  deriving DecidableEq

def numbered (entry : List Char) : Bool := entry.head?.any Char.isDigit

def lastParen : List Char → Option (List Char)
  | [] => none
  | c::rest =>
    match lastParen rest with
    | some found => some found
    | none => if c = ')' then some (c::rest) else none

section Threads

variable (beyond : Int → Int)

def scanInt (text : List Char) : Option Int :=
  if (scanSign (text.dropWhile isSpace)).2.takeWhile Char.isDigit = [] then none else some (atoi beyond text)

/-- The parent in the text of a thread's stat file: past the name, the blank and the state. -/
def ppidOf (stat : List Char) : Option Int :=
  match (lastParen stat).map (List.drop 2) with
  | some (_::rest) => scanInt beyond rest
  | _ => none

def searchComm (name : List Char) : List (List Char) → Driver Int
  | [] => .done (-1)
  | entry::rest =>
    if numbered entry then do
      let comm ← readFile (commPath entry)
      if comm = name then return atoi beyond entry else searchComm name rest
    else searchComm name rest

def findPidByComm (name : List Char) : Driver Int := do
  match ← listDir procDir with
  | none => return -1
  | some entries => searchComm beyond name entries

def isSshdMaster (entry : List Char) : Driver Bool :=
  if numbered entry ∧ 1 < atoi beyond entry then do
    let comm ← readFile (commPath entry)
    if comm = "sshd".toList then do
      let stat ← readFile (statPath entry)
      return ppidOf beyond stat = some 1
    else return false
  else return false

def searchSshdMaster : List (List Char) → Driver Int
  | [] => .done (-1)
  | entry::rest => do
    let found ← isSshdMaster beyond entry
    if found then return atoi beyond entry else searchSshdMaster rest

def findSshdMasterPid : Driver Int := do
  match ← listDir procDir with
  | none => return -1
  | some entries => searchSshdMaster beyond entries

def tally (body : List Char → Driver Nat) : List (List Char) → Driver Nat
  | [] => .done 0
  | entry::rest => do
    let first ← body entry
    let others ← tally body rest
    return first + others

def migrateThread (entry : List Char) : Driver Nat :=
  if numbered entry ∧ 2 < atoi beyond entry then do
    let stat ← readFile (statPath (decimal (atoi beyond entry)))
    if ppidOf beyond stat = some 2 then do
      let moved ← (ask (Call.setAffinity (atoi beyond entry) 0) : Driver Bool)
      return moved.toNat
    else return 0
  else return 0

def migrateKernelThreads : Driver Nat := do
  match ← listDir procDir with
  | none => return 0
  | some entries => tally (migrateThread beyond) entries

def migrateWorkqueue (entry : List Char) : Driver Nat :=
  if entry.head? = some '.' then .done 0
  else do
    let moved ← writeFile (cpumaskPath entry) "1".toList
    return moved.toNat

def migrateWorkqueues : Driver Nat := do
  match ← listDir workqueueDir with
  | none => return 0
  | some entries => tally migrateWorkqueue entries

end Threads

section Settings

def failed (text : List Char) : List Char := "[NicTuner] FAIL: ".toList ++ text

def setFile (path value complaint : List Char) : Driver Unit := do
  let written ← writeFile path value
  given (!written) (print (failed complaint)) ()

def offloadName : Offload → List Char
  | .gro => "GRO".toList
  | .gso => "GSO".toList
  | .tso => "TSO".toList

/-- At most fifteen characters of the name are copied by `ethtoolIoctl`. -/
def ifrName (interface : List Char) : List Char := interface.take 15

def disable (interface : List Char) (offload : Offload) : Driver Unit := do
  let data ← (ask (Call.getOffload (ifrName interface) offload) : Driver (Option (BitVec 32)))
  given (data.any (· ≠ 0)) (do
    let cleared ← (ask (Call.clearOffload (ifrName interface) offload) : Driver Bool)
    given (!cleared) (print (failed ("disable ".toList ++ offloadName offload))) ()) ()

def ksoftName (cpuCore : Int) : List Char := "ksoftirqd/".toList ++ decimal cpuCore

def boostKsoftirqd (beyond : Int → Int) (cpuCore : Int) : Driver Unit := do
  let kpid ← findPidByComm beyond (ksoftName cpuCore)
  if 0 < kpid then do
    match ← (ask (Call.setScheduler kpid .fifo 50) : Driver (Except (List Char) Unit)) with
    | .ok _ => return ()
    | .error message => print (failed (ksoftName cpuCore ++ (" SCHED_FIFO:50: ".toList ++ message)))
  else print (failed (ksoftName cpuCore ++ " not found".toList))

def isolate (cpuCore : Int) : Driver Unit := do
  let status ← (ask (Call.system ("tuna --cpus=".toList ++ (decimal cpuCore ++ " --isolate 2>/dev/null".toList))) : Driver Int)
  given (status = 0) (print ("[NicTuner] Core ".toList ++ (decimal cpuCore ++ " isolated via tuna".toList))) ()

def boostSshd (beyond : Int → Int) : Driver Unit := do
  let sshdPid ← findSshdMasterPid beyond
  if 0 < sshdPid then do
    match ← (ask (Call.setScheduler sshdPid .roundRobin 1) : Driver (Except (List Char) Unit)) with
    | .ok _ => print ("[NicTuner] sshd (pid ".toList ++ (decimal sshdPid ++ ") → SCHED_RR:1".toList))
    | .error message => print (failed ("sshd SCHED_RR:1: ".toList ++ message))
  else print "[NicTuner] WARN: sshd master not found, SSH may be unresponsive".toList

end Settings

section Interrupts

/-- There is room for seven characters in `coreStr`. -/
def coreStr (cpuCore : Int) : List Char := snprintf 8 (decimal cpuCore)

def listAnother (core : Int) (result : List Char) (i : Nat) : List Char :=
  if (i : Int) = core then result
  else result ++ ((if result = [] then [] else [',']) ++ Nat.toDigits 10 i)

def cpuListExcluding (nproc core : Int) : List Char := (List.range nproc.toNat).foldl (listAnother core) []

def pinIrq (cpuCore : Int) (irq : Int) : Driver Unit :=
  setFile (affinityPath irq) (coreStr cpuCore)
    ("pin IRQ ".toList ++ (decimal irq ++ (" to core ".toList ++ decimal cpuCore)))

def strayIrq (beyond : Int → Int) (nicIrqs : List Int) (entry : List Char) : Option Int :=
  if numbered entry ∧ atoi beyond entry ≠ 0 ∧ atoi beyond entry ∉ nicIrqs then some (atoi beyond entry) else none

def moveIrq (beyond : Int → Int) (nicIrqs : List Int) (mask entry : List Char) : Driver Unit :=
  match strayIrq beyond nicIrqs entry with
  | none => .done ()
  | some irq => do
    let _ ← writeFile (affinityPath irq) mask
    return ()

def moveIrqs (beyond : Int → Int) (nicIrqs : List Int) (mask : List Char) : Driver Unit := do
  match ← listDir irqDir with
  | none => return ()
  | some entries => each (moveIrq beyond nicIrqs mask) entries

def steerIrqs (beyond : Int → Int) (t : Tuning) : Driver Unit := do
  let file ← (ask Call.readInterrupts : Driver (Option (List Char)))
  let nicIrqs := findNicIrqs beyond file t.interface
  given nicIrqs.isEmpty (print (failed ("no IRQs found for ".toList ++ t.interface))) ()
  each (pinIrq t.cpuCore) nicIrqs
  let nproc ← (ask Call.onlineCpus : Driver Int)
  moveIrqs beyond nicIrqs (cpuListExcluding nproc t.cpuCore)

end Interrupts

def openSocket : Driver Bool := do
  match ← (ask Call.socket : Driver (Except (List Char) Unit)) with
  | .ok _ => return true
  | .error message => do
    print (failed ("socket() for ethtool: ".toList ++ message))
    return false

def quieten (beyond : Int → Int) (t : Tuning) : Driver Bool := do
  let _ ← (ask (Call.system "systemctl stop irqbalance 2>/dev/null".toList) : Driver Int)
  let threads ← migrateKernelThreads beyond
  given (threads = 0) (print (failed "could not migrate any kernel threads to core 0".toList)) ()
  let workqueues ← migrateWorkqueues
  given (workqueues = 0) (print (failed "could not redirect any workqueues to core 0".toList)) ()
  let opened ← openSocket
  setFile (governorPath t.cpuCore) "performance".toList ("set governor on CPU".toList ++ decimal t.cpuCore)
  let _ ← writeFile busyPollPath "50".toList
  let _ ← writeFile busyReadPath "50".toList
  setFile statIntervalPath "120".toList "set vm.stat_interval".toList
  given opened (each (disable t.interface) [.gro,.gso,.tso]) ()
  let throttling ← writeInt rtRuntimePath (-1)
  given (!throttling) (print (failed "disable RT throttling".toList)) ()
  boostKsoftirqd beyond t.cpuCore
  isolate t.cpuCore
  let _ ← writeInt watchdogPath 0
  return opened

def construct (beyond : Int → Int) (t : Tuning) : Driver Bool :=
  if t.mode = .Off then do
    print "[NicTuner] Off".toList
    return false
  else do
    let opened ← quieten beyond t
    steerIrqs beyond t
    given (t.mode = .NfsSafe) (boostSshd beyond) ()
    print ("[NicTuner] Applied (".toList ++ ((if t.mode = .NfsSafe then "nfs_safe".toList else "full".toList) ++
      (") for ".toList ++ (t.interface ++ (" on core ".toList ++ decimal t.cpuCore)))))
    return opened

def destroy (opened : Bool) : Driver Unit := given opened (ask Call.closeSocket) ()

/-- What has been read, the last file first, and what has been asked for. A directory is as it
was last listed. A write is kept once as it was asked for and once as it was accepted. -/
structure Machine where
  listed : List Char → List (List Char)
  reads : List (List Char × List Char)
  interrupts : Option (List Char)
  cpus : Int
  asked : List Char → Option (List Char)
  files : List Char → Option (List Char)

namespace Machine

def start : Machine := ⟨fun _ => [],[],none,0,fun _ => none,fun _ => none⟩

variable (beyond : Int → Int)

def parentRead (s : Machine) (entry : List Char) (parent : Int) : Bool :=
  s.reads.head?.any (fun file => file.1 = statPath entry && ppidOf beyond file.2 = some parent)

def nicIrqs (s : Machine) (interface : List Char) : List Int := findNicIrqs beyond s.interrupts interface

def strayIrqs (s : Machine) (interface : List Char) : List Int :=
  (s.listed irqDir).filterMap (strayIrq beyond (s.nicIrqs beyond interface))

def settings (t : Tuning) : List (List Char × List Char) :=
  [(governorPath t.cpuCore,"performance".toList),(busyPollPath,"50".toList),(busyReadPath,"50".toList),
    (statIntervalPath,"120".toList),(rtRuntimePath,"-1".toList),(watchdogPath,"0".toList)]

def mayWrite (t : Tuning) (s : Machine) (path value : List Char) : Bool :=
  (path,value) ∈ settings t
  || (value = "1".toList && (s.listed workqueueDir).any (fun entry => path = cpumaskPath entry))
  || (value = coreStr t.cpuCore && (s.nicIrqs beyond t.interface).any (fun irq => path = affinityPath irq))
  || (value = cpuListExcluding s.cpus t.cpuCore &&
    (s.strayIrqs beyond t.interface).any (fun irq => path = affinityPath irq))

def isKsoftirqd (t : Tuning) (s : Machine) (pid : Int) : Bool :=
  (s.listed procDir).any (fun entry => atoi beyond entry = pid && s.reads.head? = some (commPath entry,ksoftName t.cpuCore))

def isSshd (s : Machine) (pid : Int) : Bool :=
  1 < pid && (s.listed procDir).any (fun entry =>
    atoi beyond entry = pid && s.parentRead beyond entry 1 && s.reads[1]? = some (commPath entry,"sshd".toList))

/-- Only threads of the kernel are moved, and to CPU 0; only the core's own softirq thread and,
in the mode that asks for it, the master of sshd are boosted. -/
def permitted (t : Tuning) (s : Machine) : Call → Bool
  | .setAffinity pid cpu => cpu = 0 && 2 < pid && s.parentRead beyond (decimal pid) 2
  | .setScheduler pid .fifo priority => priority = 50 && 0 < pid && s.isKsoftirqd beyond t pid
  | .setScheduler pid .roundRobin priority => t.mode = .NfsSafe && priority = 1 && s.isSshd beyond pid
  | .writeFile path value => s.mayWrite beyond t path value
  | .getOffload name _ | .clearOffload name _ => name = ifrName t.interface
  | _ => true

def effect (s : Machine) : Exchange Call Reply → Machine
  | ⟨.listDir path,entries⟩ => {s with listed := Function.update s.listed path (entries.getD [])}
  | ⟨.readFile path,raw⟩ => {s with reads := (path,contents raw)::s.reads}
  | ⟨.readInterrupts,file⟩ => {s with interrupts := file}
  | ⟨.onlineCpus,nproc⟩ => {s with cpus := nproc}
  | ⟨.writeFile path value,accepted⟩ =>
    {s with asked := Function.update s.asked path (some value),
            files := if accepted then Function.update s.files path (some value) else s.files}
  | _ => s

end Machine

def watch (beyond : Int → Int) (t : Tuning) (s : Machine) (exchange : Exchange Call Reply) : Option Machine :=
  if s.permitted beyond t exchange.request then some (s.effect exchange) else none

section Texts

private theorem leadingNumber_decimal (n : Int) {rest : List Char} (stops : ∀ c ∈ rest.head?, c.isDigit = false) :
    leadingNumber (decimal n ++ rest) = n := by
  cases n with
  | ofNat n =>
    have read : leadingNumber ([] ++ (Nat.toDigits 10 n ++ rest)) = Nat.ofDigitChars 10 (Nat.toDigits 10 n) 0 :=
      leadingNumber_digits (by simp) Nat.toDigits_ne_nil
        ⟨rfl,fun c member => Nat.isDigit_of_mem_toDigits (by decide) (by decide) member,stops⟩
    rw [Nat.ofDigitChars_toDigits (by decide) (by decide)] at read
    exact read
  | negSucc n =>
    have digits : Run Char.isDigit (Nat.toDigits 10 (n + 1) ++ rest) (Nat.toDigits 10 (n + 1)) rest :=
      ⟨rfl,fun c member => Nat.isDigit_of_mem_toDigits (by decide) (by decide) member,stops⟩
    have read : leadingNumber (decimal (.negSucc n) ++ rest) =
      -((Nat.ofDigitChars 10 ((Nat.toDigits 10 (n + 1) ++ rest).takeWhile Char.isDigit) 0 : Nat) : Int) := rfl
    rw [read,digits.takeWhile,Nat.ofDigitChars_toDigits (by decide) (by decide)]
    rfl

theorem affinityPath_injective {first second : Int} (same : affinityPath first = affinityPath second) : first = second := by
  have tails := List.append_cancel_left same
  have numbers := congrArg leadingNumber tails
  rwa [leadingNumber_decimal _ (by simp),leadingNumber_decimal _ (by simp)] at numbers

theorem affinityPath_ne_of_char {path : List Char} {i : Nat} {c d : Char} (here : path[i]? = some c)
    (there : ∀ irq, (affinityPath irq)[i]? = some d) (differ : c ≠ d) (irq : Int) : path ≠ affinityPath irq := by
  intro same
  rw [same,there irq] at here
  exact differ (Option.some.inj here).symm

private theorem cpumaskPath_ne_affinityPath (entry : List Char) (irq : Int) : cpumaskPath entry ≠ affinityPath irq :=
  affinityPath_ne_of_char (i := 1) (c := 's') (d := 'p') rfl (fun _ => rfl) (by decide) irq

private theorem settings_ne_affinityPath {t : Tuning} {path value : List Char}
    (setting : (path,value) ∈ Machine.settings t) (irq : Int) :
    path ≠ affinityPath irq := by
  simp only [Machine.settings,List.mem_cons,Prod.mk.injEq,List.not_mem_nil,or_false] at setting
  rcases setting with ⟨rfl,_⟩ | ⟨rfl,_⟩ | ⟨rfl,_⟩ | ⟨rfl,_⟩ | ⟨rfl,_⟩ | ⟨rfl,_⟩
  · exact affinityPath_ne_of_char (i := 1) (c := 's') (d := 'p') rfl (fun _ => rfl) (by decide) irq
  all_goals exact affinityPath_ne_of_char (i := 6) (c := 's') (d := 'i') rfl (fun _ => rfl) (by decide) irq

end Texts

structure Same (s u : Machine) : Prop where
  interrupts : u.interrupts = s.interrupts
  cpus : u.cpus = s.cpus
  irqs : u.listed irqDir = s.listed irqDir

theorem Same.trans {s u v : Machine} (first : Same s u) (second : Same u v) : Same s v :=
  ⟨second.interrupts.trans first.interrupts,second.cpus.trans first.cpus,second.irqs.trans first.irqs⟩

structure Asks (which : List Int) (value : List Char) (s u : Machine) : Prop extends Same s u where
  asked : ∀ irq, u.asked (affinityPath irq) = if irq ∈ which then some value else s.asked (affinityPath irq)

structure Keeps (s u : Machine) : Prop extends Same s u where
  asked : ∀ irq, u.asked (affinityPath irq) = s.asked (affinityPath irq)

theorem Keeps.refl (s : Machine) : Keeps s s := ⟨⟨rfl,rfl,rfl⟩,fun _ => rfl⟩

theorem Keeps.trans {s u v : Machine} (first : Keeps s u) (second : Keeps u v) : Keeps s v :=
  ⟨first.toSame.trans second.toSame,fun irq => (second.asked irq).trans (first.asked irq)⟩

theorem Asks.keeps {which : List Int} {value : List Char} {s u v : Machine} (asks : Asks which value s u)
    (keeps : Keeps u v) :
    Asks which value s v :=
  ⟨asks.toSame.trans keeps.toSame,fun irq => (keeps.asked irq).trans (asks.asked irq)⟩

variable {beyond : Int → Int} {t : Tuning} {allows : Machine → Exchange Call Reply → Prop} {s u v : Machine} {α β ι : Type}

theorem safe_request {request : Call} {post : Reply request → Machine → Prop} (ok : s.permitted beyond t request = true)
    (after : ∀ reply, allows s ⟨request,reply⟩ → post reply (s.effect ⟨request,reply⟩)) :
    Safe (watch beyond t) allows s (ask request) post := by
  rw [safe_ask]
  intro reply allowed
  exact ⟨_,if_pos ok,after reply allowed⟩

theorem safe_readFile {path : List Char} {post : List Char → Machine → Prop}
    (after : ∀ text, post text {s with reads := (path,text)::s.reads}) :
      Safe (watch beyond t) allows s (readFile path) post :=
  safe_bind.mpr (safe_request rfl (fun raw _ => after (contents raw)))

variable (beyond t allows) in
abbrev Quiet (program : Driver α) : Prop := Within (watch beyond t) allows (fun _ => True) Keeps program

section Quiet

theorem quiet_done (value : α) : Quiet beyond t allows (.done value) := within_done Keeps.refl value

theorem Quiet.bind {program : Driver α} {f : α → Driver β} (before : Quiet beyond t allows program)
    (after : ∀ value, Quiet beyond t allows (f value)) : Quiet beyond t allows (program.bind f) :=
  Within.bind Keeps.trans before after

theorem Quiet.after {program : Driver α} (quiet : Quiet beyond t allows program) (keeps : Keeps s u) :
    Safe (watch beyond t) allows u program (fun _ v => True ∧ Keeps s v) :=
  (quiet u trivial).mono (fun _ _ later => ⟨later.1,keeps.trans later.2⟩)

theorem Quiet.given {has : Bool} {body : Driver α} {otherwise : α} (quiet : has = true → Quiet beyond t allows body) :
    Quiet beyond t allows (given has body otherwise) := by
  intro s on
  exact safe_given (fun holds => quiet holds s on) (fun _ => ⟨on,Keeps.refl s⟩)

theorem quiet_request {request : Call} (ok : ∀ s : Machine, s.permitted beyond t request = true)
    (keeps : ∀ (s : Machine) reply, Keeps s (s.effect ⟨request,reply⟩)) : Quiet beyond t allows (ask request) :=
  fun s on => safe_request (ok s) (fun reply _ => ⟨on,keeps s reply⟩)

theorem quiet_print (text : List Char) : Quiet beyond t allows (print text) :=
  quiet_request (fun _ => rfl) (fun s _ => Keeps.refl s)

private theorem quiet_system (command : List Char) : Quiet beyond t allows (ask (Call.system command)) :=
  quiet_request (fun _ => rfl) (fun s _ => Keeps.refl s)

private theorem keeps_asked {path value : List Char} {accepted : Bool} (apart : ∀ irq, path ≠ affinityPath irq) :
    Keeps s (s.effect ⟨.writeFile path value,accepted⟩) :=
  ⟨⟨rfl,rfl,rfl⟩,fun irq => Function.update_of_ne (apart irq).symm _ _⟩

theorem quiet_setting {path value : List Char} (setting : (path,value) ∈ Machine.settings t) :
    Quiet beyond t allows (writeFile path value) :=
  quiet_request (fun s => by simp [Machine.permitted,Machine.mayWrite,setting])
    (fun s _ => keeps_asked (settings_ne_affinityPath setting))

private theorem quiet_setFile {path value complaint : List Char} (setting : (path,value) ∈ Machine.settings t) :
    Quiet beyond t allows (setFile path value complaint) :=
  (quiet_setting setting).bind (fun _ => Quiet.given (fun _ => quiet_print _))

theorem keeps_listed {path : List Char} {entries : Option (List (List Char))} (other : irqDir ≠ path) :
    Keeps s (s.effect ⟨.listDir path,entries⟩) :=
  ⟨⟨rfl,rfl,Function.update_of_ne other _ _⟩,fun _ => rfl⟩

private theorem quiet_tally {body : List Char → Driver Nat} (entries : List (List Char))
    (quiet : ∀ entry ∈ entries, Quiet beyond t allows (body entry)) : Quiet beyond t allows (tally body entries) := by
  induction entries with
  | nil => exact quiet_done 0
  | cons entry rest ih =>
    rw [List.forall_mem_cons] at quiet
    exact quiet.1.bind (fun _ => (ih quiet.2).bind (fun _ => quiet_done _))

private theorem quiet_migrateThread (entry : List Char) : Quiet beyond t allows (migrateThread beyond entry) := by
  unfold migrateThread
  split
  next number =>
    intro s on
    refine safe_bind.mpr (safe_readFile (fun stat => ?_))
    dsimp only
    split
    next child =>
      refine safe_bind.mpr (safe_request ?_ (fun moved _ => ⟨on,⟨rfl,rfl,rfl⟩,fun _ => rfl⟩))
      simp [Machine.permitted,Machine.parentRead,number.2,child]
    next => exact ⟨on,⟨rfl,rfl,rfl⟩,fun _ => rfl⟩
  next => exact quiet_done 0

theorem safe_listing {path : List Char} (other : irqDir ≠ path) {f : Option (List (List Char)) → Driver α}
    {post : α → Machine → Prop}
    (absent : ∀ u, Keeps s u → Safe (watch beyond t) allows u (f none) post)
    (present : ∀ u entries, Keeps s u → (∀ entry ∈ entries, entry ∈ u.listed path) →
      Safe (watch beyond t) allows u (f (some entries)) post) :
        Safe (watch beyond t) allows s ((listDir path).bind f) post := by
  refine safe_bind.mpr (safe_request rfl (fun entries _ => ?_))
  cases entries with
  | none => exact absent _ (keeps_listed other)
  | some entries =>
    refine present _ entries (keeps_listed other) (fun entry member => ?_)
    simpa [Machine.effect] using member

private theorem quiet_migrateKernelThreads : Quiet beyond t allows (migrateKernelThreads beyond) := by
  refine Quiet.bind (quiet_request (fun _ => rfl) (fun _ _ => keeps_listed (by decide))) (fun entries => ?_)
  cases entries with
  | none => exact quiet_done 0
  | some entries => exact quiet_tally entries (fun entry _ => quiet_migrateThread entry)

private theorem tally_workqueues (entries : List (List Char)) (listed : ∀ entry ∈ entries, entry ∈ s.listed workqueueDir) :
    Safe (watch beyond t) allows s (tally migrateWorkqueue entries) (fun _ u => Keeps s u) := by
  induction entries generalizing s with
  | nil => exact Keeps.refl s
  | cons entry rest ih =>
    rw [List.forall_mem_cons] at listed
    have first : Safe (watch beyond t) allows s (migrateWorkqueue entry) (fun _ u => Keeps s u ∧ u.listed = s.listed) := by
      unfold migrateWorkqueue
      split
      · exact ⟨Keeps.refl s,rfl⟩
      · refine safe_bind.mpr (safe_request ?_ (fun _ _ => ⟨keeps_asked (cpumaskPath_ne_affinityPath entry),rfl⟩))
        have written : (s.listed workqueueDir).any (fun other => cpumaskPath entry = cpumaskPath other) = true :=
          List.any_eq_true.mpr ⟨entry,listed.1,decide_eq_true rfl⟩
        simp [Machine.permitted,Machine.mayWrite,written]
    refine safe_bind.mpr (first.mono ?_)
    rintro _ u ⟨keeps,same⟩
    refine safe_bind.mpr ((ih (by rw [same]; exact listed.2)).mono ?_)
    exact fun _ _ later => keeps.trans later

private theorem quiet_migrateWorkqueues : Quiet beyond t allows migrateWorkqueues := by
  intro s on
  refine safe_listing (by decide) (fun u keeps => ⟨on,keeps⟩) (fun u entries keeps listed => ?_)
  exact (tally_workqueues entries listed).mono (fun _ _ later => ⟨on,keeps.trans later⟩)

def Found (beyond : Int → Int) (s : Machine) (holds : Machine → List Char → Prop) (pid : Int) (u : Machine) : Prop :=
  Keeps s u ∧ u.listed = s.listed ∧ (pid = -1 ∨ ∃ entry ∈ u.listed procDir, atoi beyond entry = pid ∧ holds u entry)

theorem Found.after {holds : Machine → List Char → Prop} {pid : Int} (found : Found beyond u holds pid v)
    (keeps : Keeps s u)
    (same : u.listed = s.listed) : Found beyond s holds pid v :=
  ⟨keeps.trans found.1,found.2.1.trans same,found.2.2⟩

private theorem searchComm_spec (name : List Char) (entries : List (List Char))
    (listed : ∀ entry ∈ entries, entry ∈ s.listed procDir) :
    Safe (watch beyond t) allows s (searchComm beyond name entries)
      (Found beyond s (fun u entry => u.reads.head? = some (commPath entry,name))) := by
  induction entries generalizing s with
  | nil => exact ⟨Keeps.refl s,rfl,.inl rfl⟩
  | cons entry rest ih =>
    rw [List.forall_mem_cons] at listed
    unfold searchComm
    split
    · refine safe_bind.mpr (safe_readFile (fun comm => ?_))
      split
      next same =>
        refine ⟨⟨⟨rfl,rfl,rfl⟩,fun _ => rfl⟩,rfl,.inr ⟨entry,listed.1,rfl,?_⟩⟩
        rw [← same]
        rfl
      next =>
        refine (ih ?_).mono (fun _ _ found => found.after ⟨⟨rfl,rfl,rfl⟩,fun _ => rfl⟩ rfl)
        exact listed.2
    · exact ih listed.2

private theorem boostKsoftirqd_quiet : Quiet beyond t allows (boostKsoftirqd beyond t.cpuCore) := by
  intro s on
  have found : Safe (watch beyond t) allows s (findPidByComm beyond (ksoftName t.cpuCore)) (fun pid u => Keeps s u ∧
      (pid = -1 ∨ u.isKsoftirqd beyond t pid = true)) := by
    refine safe_listing (by decide) (fun _ keeps => ⟨keeps,.inl rfl⟩) (fun _ entries keeps listed => ?_)
    refine (searchComm_spec (ksoftName t.cpuCore) entries listed).mono ?_
    rintro pid u ⟨later,_,absent | ⟨entry,member,number,read⟩⟩
    · exact ⟨keeps.trans later,.inl absent⟩
    · refine ⟨keeps.trans later,.inr (List.any_eq_true.mpr ⟨entry,member,?_⟩)⟩
      simp [number,read]
  refine safe_bind.mpr (found.mono ?_)
  rintro pid u ⟨keeps,found⟩
  dsimp only
  split
  next positive =>
    rcases found with absent | named
    · omega
    · refine safe_bind.mpr (safe_request ?_ (fun reply _ => ?_))
      · simp [Machine.permitted,positive,named]
      · cases reply with
        | ok _ => exact ⟨trivial,keeps⟩
        | error message => exact (quiet_print _).after keeps
  next => exact (quiet_print _).after keeps

private theorem searchSshdMaster_spec (entries : List (List Char)) (listed : ∀ entry ∈ entries, entry ∈ s.listed procDir) :
    Safe (watch beyond t) allows s (searchSshdMaster beyond entries)
      (Found beyond s (fun u entry => 1 < atoi beyond entry ∧ u.parentRead beyond entry 1 = true ∧
        u.reads[1]? = some (commPath entry,"sshd".toList))) := by
  induction entries generalizing s with
  | nil => exact ⟨Keeps.refl s,rfl,.inl rfl⟩
  | cons entry rest ih =>
    rw [List.forall_mem_cons] at listed
    have tested : Safe (watch beyond t) allows s (isSshdMaster beyond entry)
        (fun found u => Keeps s u ∧ u.listed = s.listed ∧
        (found = true → 1 < atoi beyond entry ∧ u.parentRead beyond entry 1 = true ∧
          u.reads[1]? = some (commPath entry,"sshd".toList))) := by
      unfold isSshdMaster
      split
      next number =>
        refine safe_bind.mpr (safe_readFile (fun comm => ?_))
        split
        next same =>
          refine safe_bind.mpr (safe_readFile (fun stat => ⟨⟨⟨rfl,rfl,rfl⟩,fun _ => rfl⟩,rfl,
              fun child => ⟨number.2,?_,?_⟩⟩))
          · simpa [Machine.parentRead] using child
          · rw [← same]
            rfl
        next => exact ⟨⟨⟨rfl,rfl,rfl⟩,fun _ => rfl⟩,rfl,by simp⟩
      next => exact ⟨Keeps.refl s,rfl,by simp⟩
    refine safe_bind.mpr (tested.mono ?_)
    rintro found u ⟨keeps,same,holds⟩
    split
    next yes => exact ⟨keeps,same,.inr ⟨entry,same ▸ listed.1,rfl,holds yes⟩⟩
    next => exact (ih (by rw [same]; exact listed.2)).mono (fun _ _ later => later.after keeps same)

private theorem boostSshd_quiet (safe : t.mode = .NfsSafe) : Quiet beyond t allows (boostSshd beyond) := by
  intro s on
  have found : Safe (watch beyond t) allows s (findSshdMasterPid beyond) (fun pid u => Keeps s u ∧
      (pid = -1 ∨ u.isSshd beyond pid = true)) := by
    refine safe_listing (by decide) (fun _ keeps => ⟨keeps,.inl rfl⟩) (fun _ entries keeps listed => ?_)
    refine (searchSshdMaster_spec entries listed).mono ?_
    rintro pid u ⟨later,_,absent | ⟨entry,member,rfl,above,parent,comm⟩⟩
    · exact ⟨keeps.trans later,.inl absent⟩
    · refine ⟨keeps.trans later,.inr ?_⟩
      rw [Machine.isSshd,Bool.and_eq_true,List.any_eq_true]
      exact ⟨decide_eq_true above,entry,member,by simp [parent,comm]⟩
  refine safe_bind.mpr (found.mono ?_)
  rintro pid u ⟨keeps,found⟩
  dsimp only
  split
  next positive =>
    rcases found with absent | named
    · omega
    · refine safe_bind.mpr (safe_request ?_ (fun reply _ => ?_))
      · simp [Machine.permitted,safe,named]
      · cases reply with
        | ok _ => exact (quiet_print _).after keeps
        | error message => exact (quiet_print _).after keeps
  next => exact (quiet_print _).after keeps

private theorem quiet_disable (offload : Offload) : Quiet beyond t allows (disable t.interface offload) := by
  refine Quiet.bind (quiet_request (fun _ => decide_eq_true rfl) (fun s _ => Keeps.refl s)) (fun data => ?_)
  refine Quiet.given (fun _ => Quiet.bind (quiet_request (fun _ => decide_eq_true rfl) (fun s _ => Keeps.refl s))
      (fun _ => ?_))
  exact Quiet.given (fun _ => quiet_print _)

private theorem quiet_isolate (cpuCore : Int) : Quiet beyond t allows (isolate cpuCore) :=
  (quiet_system _).bind (fun _ => Quiet.given (fun _ => quiet_print _))

private theorem quiet_openSocket : Quiet beyond t allows openSocket := by
  refine Quiet.bind (quiet_request (fun _ => rfl) (fun s _ => Keeps.refl s)) (fun reply => ?_)
  cases reply with
  | ok _ => exact quiet_done true
  | error message => exact (quiet_print _).bind (fun _ => quiet_done false)

private theorem quiet_quieten : Quiet beyond t allows (quieten beyond t) := by
  have throttling : Quiet beyond t allows (writeInt rtRuntimePath (-1)) :=
    quiet_setting (show (rtRuntimePath,"-1".toList) ∈ Machine.settings t by simp [Machine.settings])
  have watchdog : Quiet beyond t allows (writeInt watchdogPath 0) :=
    quiet_setting (show (watchdogPath,"0".toList) ∈ Machine.settings t by simp [Machine.settings])
  refine Quiet.bind (quiet_system _) (fun _ => ?_)
  refine Quiet.bind quiet_migrateKernelThreads (fun _ => Quiet.bind (Quiet.given (fun _ => quiet_print _)) (fun _ => ?_))
  refine Quiet.bind quiet_migrateWorkqueues (fun _ => Quiet.bind (Quiet.given (fun _ => quiet_print _)) (fun _ => ?_))
  refine Quiet.bind quiet_openSocket (fun opened => ?_)
  refine Quiet.bind (quiet_setFile (by simp [Machine.settings])) (fun _ => ?_)
  refine Quiet.bind (quiet_setting (by simp [Machine.settings])) (fun _ => ?_)
  refine Quiet.bind (quiet_setting (by simp [Machine.settings])) (fun _ => ?_)
  refine Quiet.bind (quiet_setFile (by simp [Machine.settings])) (fun _ => ?_)
  refine Quiet.bind (Quiet.given (fun _ => Within.each Keeps.refl Keeps.trans _ (fun offload _ => quiet_disable offload)))
    (fun _ => ?_)
  refine Quiet.bind throttling (fun _ => ?_)
  refine Quiet.bind (Quiet.given (fun _ => quiet_print _)) (fun _ => ?_)
  refine Quiet.bind boostKsoftirqd_quiet (fun _ => Quiet.bind (quiet_isolate _) (fun _ => ?_))
  exact Quiet.bind watchdog (fun _ => quiet_done opened)

end Quiet

section Steering

private theorem safe_affinity {irq : Int} {value : List Char} (ok : s.mayWrite beyond t (affinityPath irq) value = true) :
    Safe (watch beyond t) allows s (writeFile (affinityPath irq) value) (fun _ u => Asks [irq] value s u) := by
  refine safe_request ok (fun accepted _ => ⟨⟨rfl,rfl,rfl⟩,fun other => ?_⟩)
  by_cases same : other = irq
  · simp [same,Machine.effect]
  · have apart : affinityPath other ≠ affinityPath irq := fun equal => same (affinityPath_injective equal)
    simp [same,apart,Machine.effect]

private theorem safe_each_affinity {body : Int → Driver Unit} (which : List Int) (value : List Char)
    (turn : ∀ u irq, irq ∈ which → Same s u → Safe (watch beyond t) allows u (body irq) (fun _ v => Asks [irq] value u v)) :
    Safe (watch beyond t) allows s (each body which) (fun _ u => Asks which value s u) := by
  induction which generalizing s with
  | nil => exact ⟨⟨rfl,rfl,rfl⟩,fun irq => by simp⟩
  | cons irq rest ih =>
    refine safe_bind.mpr ((turn s irq (by simp) ⟨rfl,rfl,rfl⟩).mono ?_)
    intro _ u first
    have later := ih (fun v other member same => turn v other (.tail _ member) (first.toSame.trans same))
    refine later.mono (fun _ v all => ⟨first.toSame.trans all.toSame,fun other => ?_⟩)
    rw [all.asked other,first.asked other]
    by_cases here : other = irq <;> by_cases there : other ∈ rest <;> simp [here,there]

private theorem any_affinityPath {irqs : List Int} {irq : Int} (listed : irq ∈ irqs) :
    irqs.any (fun other => affinityPath irq = affinityPath other) = true :=
  List.any_eq_true.mpr ⟨irq,listed,decide_eq_true rfl⟩

private theorem mayWrite_pinned {irq : Int} (listed : irq ∈ s.nicIrqs beyond t.interface) :
    s.mayWrite beyond t (affinityPath irq) (coreStr t.cpuCore) = true := by
  simp [Machine.mayWrite,any_affinityPath listed]

private theorem mayWrite_moved {irq : Int} (listed : irq ∈ s.strayIrqs beyond t.interface) :
    s.mayWrite beyond t (affinityPath irq) (cpuListExcluding s.cpus t.cpuCore) = true := by
  simp [Machine.mayWrite,any_affinityPath listed]

private theorem pinIrqs_spec {which : List Int} (named : s.nicIrqs beyond t.interface = which) :
    Safe (watch beyond t) allows s (each (pinIrq t.cpuCore) which) (fun _ u => Asks which (coreStr t.cpuCore) s u) := by
  refine safe_each_affinity which _ (fun u irq member same => ?_)
  have listed : irq ∈ u.nicIrqs beyond t.interface := by
    rw [← named] at member
    rw [Machine.nicIrqs,same.interrupts]
    exact member
  refine safe_bind.mpr ((safe_affinity (mayWrite_pinned listed)).mono (fun _ v asks => ?_))
  exact ((Quiet.given (fun _ => quiet_print _)) v trivial).mono (fun _ _ later => asks.keeps later.2)

private theorem each_moveIrq (nicIrqs : List Int) (mask : List Char) (entries : List (List Char)) :
    each (moveIrq beyond nicIrqs mask) entries =
      each (fun irq => (writeFile (affinityPath irq) mask).bind (fun _ => .done ()))
        (entries.filterMap (strayIrq beyond nicIrqs)) := by
  induction entries with
  | nil => rfl
  | cons entry rest ih =>
    rw [List.filterMap_cons,each,moveIrq]
    cases strayIrq beyond nicIrqs entry with
    | none => exact ih
    | some irq => rw [each,ih]; rfl

private theorem moveIrqs_spec :
    Safe (watch beyond t) allows s (moveIrqs beyond (s.nicIrqs beyond t.interface) (cpuListExcluding s.cpus t.cpuCore))
      (fun _ u => u.interrupts = s.interrupts ∧ u.cpus = s.cpus ∧
        (∃ entries, allows s ⟨.listDir irqDir,entries⟩ ∧ u.listed irqDir = entries.getD []) ∧ ∀ irq,
          u.asked (affinityPath irq) =
        if irq ∈ u.strayIrqs beyond t.interface then
          some (cpuListExcluding s.cpus t.cpuCore) else s.asked (affinityPath irq)) := by
  refine safe_bind.mpr (safe_request rfl (fun entries told => ?_))
  have listed : (s.effect ⟨.listDir irqDir,entries⟩).listed irqDir = entries.getD [] := by simp [Machine.effect]
  cases entries with
  | none =>
    refine ⟨rfl,rfl,⟨none,told,listed⟩,fun irq => ?_⟩
    simp [Machine.strayIrqs,listed]
    rfl
  | some entries =>
    dsimp only
    rw [each_moveIrq]
    refine (safe_each_affinity _ (cpuListExcluding s.cpus t.cpuCore) (fun u irq member same => ?_)).mono
      (fun _ u asks => ⟨asks.interrupts,asks.cpus,⟨some entries,told,asks.irqs.trans listed⟩,fun irq => ?_⟩)
    · have stray : irq ∈ u.strayIrqs beyond t.interface := by
        rw [Machine.strayIrqs,Machine.nicIrqs,same.irqs,same.interrupts,listed]
        exact member
      have moved : Safe (watch beyond t) allows u (writeFile (affinityPath irq) (cpuListExcluding u.cpus t.cpuCore)) _ :=
        safe_affinity (mayWrite_moved stray)
      rw [same.cpus] at moved
      exact safe_bind.mpr moved
    · have named : u.nicIrqs beyond t.interface = s.nicIrqs beyond t.interface := by
        rw [Machine.nicIrqs,asks.interrupts]
        rfl
      rw [asks.asked irq,Machine.strayIrqs,named,asks.irqs,listed]
      rfl

/-- Where each interrupt is to be handled once a tuner has been made: on its core if the NIC
raises it, off the core if it is any other. -/
def decided (beyond : Int → Int) (t : Tuning) (u : Machine) (irq : Int) : Option (List Char) :=
  if irq ∈ u.nicIrqs beyond t.interface then some (coreStr t.cpuCore)
  else if irq ∈ u.strayIrqs beyond t.interface then some (cpuListExcluding u.cpus t.cpuCore)
  else none

private theorem stray_not_nic {interface : List Char} {irq : Int} (stray : irq ∈ s.strayIrqs beyond interface) :
    irq ∉ s.nicIrqs beyond interface := by
  obtain ⟨entry,_,moved⟩ := List.mem_filterMap.mp stray
  obtain ⟨other,same⟩ := Option.ite_none_right_eq_some.mp moved
  rw [← Option.some.inj same]
  exact other.2.2

structure Told (allows : Machine → Exchange Call Reply → Prop) (u : Machine) : Prop where
  interrupts : ∃ s, allows s ⟨.readInterrupts,u.interrupts⟩
  cpus : ∃ s, allows s ⟨.onlineCpus,u.cpus⟩
  irqs : ∃ s entries, allows s ⟨.listDir irqDir,entries⟩ ∧ u.listed irqDir = entries.getD []

theorem Told.same (told : Told allows u) (same : Same u v) : Told allows v where
  interrupts := same.interrupts ▸ told.interrupts
  cpus := same.cpus ▸ told.cpus
  irqs := same.irqs ▸ told.irqs

private theorem steerIrqs_spec : Safe (watch beyond t) allows s (steerIrqs beyond t) (fun _ u => Told allows u ∧ ∀ irq,
    u.asked (affinityPath irq) = (decided beyond t u irq).or (s.asked (affinityPath irq))) := by
  refine safe_bind.mpr (safe_request rfl (fun file toldFile => ?_))
  refine safe_bind.mpr (((Quiet.given (fun _ => quiet_print _)) _ trivial).mono ?_)
  rintro _ u ⟨_,keeps⟩
  refine safe_bind.mpr ((pinIrqs_spec (by rw [Machine.nicIrqs,keeps.interrupts]; rfl)).mono ?_)
  intro _ v pinned
  refine safe_bind.mpr (safe_request rfl (fun nproc toldCpus => ?_))
  have named : findNicIrqs beyond file t.interface = (v.effect ⟨.onlineCpus,nproc⟩).nicIrqs beyond t.interface := by
    change _ = findNicIrqs beyond v.interrupts t.interface
    rw [pinned.interrupts,keeps.interrupts]
    rfl
  have moves : Safe (watch beyond t) allows (v.effect ⟨.onlineCpus,nproc⟩)
      (moveIrqs beyond ((v.effect ⟨.onlineCpus,nproc⟩).nicIrqs beyond t.interface)
        (cpuListExcluding nproc t.cpuCore)) _ := moveIrqs_spec
  rw [← named] at moves
  refine moves.mono (fun _ w last => ?_)
  obtain ⟨interrupts,cpus,⟨entries,toldIrqs,listed⟩,asked⟩ := last
  have read : w.interrupts = file := interrupts.trans (pinned.interrupts.trans keeps.interrupts)
  refine ⟨⟨⟨s,read.symm ▸ toldFile⟩,⟨v,cpus.symm ▸ toldCpus⟩,⟨_,entries,toldIrqs,listed⟩⟩,fun irq => ?_⟩
  have before : v.asked (affinityPath irq) =
      if irq ∈ w.nicIrqs beyond t.interface then some (coreStr t.cpuCore) else s.asked (affinityPath irq) := by
    rw [pinned.asked irq,keeps.asked irq,named,Machine.nicIrqs,Machine.nicIrqs,interrupts]
    rfl
  rw [asked irq,decided,cpus]
  change (if _ then _ else v.asked (affinityPath irq)) = _
  by_cases stray : irq ∈ w.strayIrqs beyond t.interface
  · rw [if_pos stray,if_neg (stray_not_nic stray),if_pos stray]
    rfl
  · rw [if_neg stray,if_neg stray,before]
    split <;> rfl

end Steering

theorem construct_spec : Safe (watch beyond t) allows s (construct beyond t) (fun _ u =>
    if t.mode = .Off then Keeps s u else Told allows u ∧ ∀ irq,
      u.asked (affinityPath irq) = (decided beyond t u irq).or (s.asked (affinityPath irq))) := by
  unfold construct
  split
  next => exact safe_bind.mpr (((quiet_print _) s trivial).mono (fun _ u later => later.2))
  next =>
    refine safe_bind.mpr ((quiet_quieten s trivial).mono ?_)
    rintro opened u ⟨_,before⟩
    refine safe_bind.mpr (steerIrqs_spec.mono ?_)
    rintro _ v ⟨told,steered⟩
    have after : Quiet beyond t allows ((given (t.mode = .NfsSafe) (boostSshd beyond) ()).bind fun _ =>
        (print ("[NicTuner] Applied (".toList ++ ((if t.mode = .NfsSafe then "nfs_safe".toList else "full".toList) ++
          (") for ".toList ++ (t.interface ++ (" on core ".toList ++ decimal t.cpuCore)))))).bind fun _ => .done opened) :=
      Quiet.bind (Quiet.given (fun safe => boostSshd_quiet (of_decide_eq_true safe)))
        (fun _ => Quiet.bind (quiet_print _) (fun _ => quiet_done opened))
    refine (after v trivial).mono (fun _ w later => ⟨told.same later.2.toSame,fun irq => ?_⟩)
    have same : decided beyond t w irq = decided beyond t v irq := by
      unfold decided Machine.strayIrqs Machine.nicIrqs
      rw [later.2.interrupts,later.2.cpus,later.2.irqs]
    rw [later.2.asked irq,steered irq,same,before.asked irq]

/-- Whatever is answered, the constructor moves and boosts only the threads that what it has
just read of them names, and writes only the settings and the interrupts it is to write. -/
theorem tuner_confined (beyond : Int → Int) (t : Tuning) {trace : List (Exchange Call Reply)} {opened : Bool}
    (ran : Runs (construct beyond t) trace opened) : ∃ u, run (watch beyond t) Machine.start trace = some u := by
  have safe : Safe (watch beyond t) (fun _ _ => True) Machine.start (construct beyond t) _ := construct_spec
  obtain ⟨u,watched,_⟩ := safe.run ran (along_true _ _ _)
  exact ⟨u,watched⟩

section Lab

def labInterrupts : List Char := "     CPU0 CPU1\n 24:  5 edge  eno1\n 25:  7 edge  eno2-0\n".toList

def labIrqEntries : List (List Char) := ["0".toList,"1".toList,"24".toList,"25".toList,"default_smp_affinity".toList]

def labFiles (path : List Char) : Option (List Char) :=
  if path = statPath "17".toList then some "17 (ksoftirqd/2) S 2 0".toList
  else if path = commPath "17".toList then some "ksoftirqd/2\n".toList
  else if path = statPath "40".toList then some "40 (sshd) S 1 0".toList
  else if path = commPath "40".toList then some "sshd\n".toList
  else none

def labDirs (path : List Char) : Option (List (List Char)) :=
  if path = irqDir then some labIrqEntries
  else if path = procDir then some ["1".toList,"17".toList,"40".toList,"cpuinfo".toList]
  else if path = workqueueDir then some [".".toList,"writeback".toList]
  else none

def labSystem (_ : Unit) : (request : Call) → Reply request × Unit
  | .system _ => (0,())
  | .listDir path => (labDirs path,())
  | .readFile path => (labFiles path,())
  | .writeFile path _ => (path ≠ affinityPath 1,())
  | .readInterrupts => (some labInterrupts,())
  | .onlineCpus => (4,())
  | .socket => (.ok (),())
  | .getOffload _ _ => (some 1,())
  | .clearOffload _ _ => (true,())
  | .setAffinity _ _ => (true,())
  | .setScheduler _ _ _ => (.ok (),())
  | .closeSocket | .print _ => ((),())

def labMade : List (Exchange Call Reply) × Bool := exec labSystem () (construct id ⟨"eno1".toList,2,.NfsSafe⟩)

/-- A thread of the kernel is moved, its softirq thread and sshd are boosted. -/
theorem tuner_confined_sshd : (∀ request ∈ [.setAffinity 17 0,.setScheduler 17 .fifo 50,.setScheduler 40 .roundRobin 1],
      request ∈ labMade.1.map Exchange.request) ∧
    ∃ u, run (watch id ⟨"eno1".toList,2,.NfsSafe⟩) Machine.start labMade.1 = some u := by
  have ran : Runs (construct id ⟨"eno1".toList,2,.NfsSafe⟩) labMade.1 labMade.2 := runs_exec labSystem () _
  exact ⟨by decide +kernel,tuner_confined id ⟨"eno1".toList,2,.NfsSafe⟩ ran⟩

end Lab

end Abtrda3.NicTuner
