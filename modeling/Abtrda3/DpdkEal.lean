import Abtrda3.Dpdk
import Mathlib.Data.List.Nodup
import Mathlib.Data.List.Count
import Mathlib.Data.List.TakeWhile

/-! The device list of the process-wide EAL. Every port registers in `prepare`, once for
each device and with the first registration winning; the first `ealInit` turns the two
lists into arguments, and virtual devices suppress the PCI ones. What the arguments say is
read off the vector itself, option by option. -/
namespace Abtrda3.DpdkEal
open Abtrda3.Semantics.Machine Abtrda3.Dpdk

def kMaxSimdBitwidth : Nat := 256

structure Eal where
  allowedBdfs : List String
  vdevs : List String
  ealInited : Bool
  deriving DecidableEq, Repr

/-- The part before the first comma: the bus address or the name of a virtual device. -/
def key (entry : String) : List Char := entry.toList.takeWhile (fun c => c ≠ ',')

def addUnique (v : List String) (entry : String) : List String :=
  if v.any (fun e => key e = key entry) then v else v ++ [entry]

inductive Registration
  | allowedBdf (entry : String)
  | vdev (entry : String)
  deriving DecidableEq, Repr

def Eal.add (eal : Eal) : Registration → Eal
  | .allowedBdf entry => {eal with allowedBdfs := addUnique eal.allowedBdfs entry}
  | .vdev entry => {eal with vdevs := addUnique eal.vdevs entry}

def IsBdf (name : String) : Prop := ',' ∉ name.toList ∧ ':' ∈ name.toList

/-- What the host answers during one `prepare`; an address it cannot find is empty. -/
structure Host where
  resolveBdf : String
  bdfFromName : String
  bindToVfio : Bool
  resolved : resolveBdf = "" ∨ IsBdf resolveBdf
  derived : bdfFromName = "" ∨ IsBdf bdfFromName

def Host.pci (host : Host) : String := if host.resolveBdf = "" then host.bdfFromName else host.resolveBdf

theorem Host.pci_isBdf {host : Host} (found : host.pci ≠ "") : IsBdf host.pci := by
  unfold pci at found ⊢
  split
  · next none =>
    rw [if_pos none] at found
    exact host.derived.resolve_left found
  · next some => exact host.resolved.resolve_left some

def vname (count : Nat) : String := "net_af_xdp" ++ toString count

def vdevEntry (count : Nat) (ifname : String) : String :=
  vname count ++ ",iface=" ++ ifname ++ ",start_queue=0,queue_count=1,mode=drv,busy_budget=64"

def bdfEntry (pci devargs : String) : String := if devargs = "" then pci else pci ++ "," ++ devargs

/-- The port afterwards, the registration made and the value returned. -/
def prepare (o : Port) (eal : Eal) (bifurcated afxdpPMD : Bool) (host : Host) : Port × Option Registration × Bool :=
  if o.prepared then (o,none,true)
  else if afxdpPMD then
    ({o with bifurcated := bifurcated, afxdpPmd := afxdpPMD, pci := vname eal.vdevs.length,
             txReuseInline := false, prepared := true},
     some (.vdev (vdevEntry eal.vdevs.length o.ifname)),true)
  else
    let o := {o with bifurcated := bifurcated, afxdpPmd := afxdpPMD, pci := host.pci}
    if host.pci = "" then (o,none,false)
    else if bifurcated = false ∧ host.bindToVfio = false then (o,none,false)
    else ({o with prepared := true},some (.allowedBdf (bdfEntry host.pci o.devargs)),true)

def deviceArgs (eal : Eal) : List (String × String) :=
  if eal.vdevs.isEmpty then eal.allowedBdfs.map (fun b => ("-a",b)) else eal.vdevs.map (fun v => ("--vdev",v))

def fileLabel (eal : Eal) : String :=
  let base := if eal.vdevs.isEmpty then eal.allowedBdfs.headD "" else eal.vdevs.headD ""
  "abtrda3_" ++ String.ofList ((key base).map (fun c => if c = ':' ∨ c = '.' ∨ c = ',' then '_' else c))

def ealArgs (eal : Eal) (lcore : Int) : List String :=
  ["abtrda3","-l",toString lcore,"--main-lcore",toString lcore,"-n","4","--file-prefix",fileLabel eal,
    "--force-max-simd-bitwidth=" ++ toString kMaxSimdBitwidth] ++
  (if eal.vdevs.isEmpty then [] else ["--no-pci","--in-memory"]) ++
  (deviceArgs eal).flatMap (fun device => [device.1,device.2])

/-- The state afterwards, the arguments given to `rte_eal_init` and the value returned. -/
def ealInit (eal : Eal) (bdf : String) (lcore : Int) (rc : Int) : Eal × Option (List String) × Bool :=
  if eal.ealInited then (eal,none,true)
  else
    let eal := if eal.vdevs.isEmpty then eal.add (.allowedBdf bdf) else eal
    if rc < 0 then (eal,some (ealArgs eal lcore),false)
    else ({eal with ealInited := true},some (ealArgs eal lcore),true)

structure State where
  eal : Eal
  ports : List Port
  registered : List Registration

structure Call where
  index : Nat
  bifurcated : Bool
  afxdpPMD : Bool
  host : Host

def step (s : State) (call : Call) : Option State :=
  s.ports[call.index]?.map fun o =>
    let (o,entry,_) := prepare o s.eal call.bifurcated call.afxdpPMD call.host
    {eal := entry.elim s.eal s.eal.add, ports := s.ports.set call.index o, registered := s.registered ++ entry.toList}

def start (ports : List Port) : State := ⟨⟨[],[],false⟩,ports,[]⟩

def firsts : List String → List String
  | [] => []
  | entry::rest => entry :: (firsts rest).filter (fun e => key e ≠ key entry)

def bdfEntries (registered : List Registration) : List String :=
  registered.filterMap fun
    | .allowedBdf entry => some entry
    | .vdev _ => none

def vdevEntries (registered : List Registration) : List String :=
  registered.filterMap fun
    | .allowedBdf _ => none
    | .vdev entry => some entry

/-- The options of `rte_eal_init` whose value is the next argument, as far as they occur. -/
def takesValue (word : String) : Bool := word ∈ ["-l","--main-lcore","-n","--file-prefix","-a","--vdev"]

def options : List String → List (String × String)
  | word::value::rest => if takesValue word then (word,value) :: options rest else options (value::rest)
  | _ => []

def namesDevice (option : String × String) : Bool := option.1 = "-a" || option.1 = "--vdev"

def devices (args : List String) : List (String × String) := (options args).filter namesDevice

def named (args : List String) : List (List Char) := (devices args).map (fun device => key device.2)

theorem options_skip {word : String} (alone : takesValue word = false) (rest : List String) :
    options (word::rest) = options rest := by
  cases rest with
  | nil => rfl
  | cons value rest => rw [options,if_neg (by rw [alone]; exact Bool.false_ne_true)]

theorem options_value {word : String} (valued : takesValue word = true) (value : String) (rest : List String) :
    options (word::value::rest) = (word,value) :: options rest := by
  rw [options,if_pos valued]

private theorem options_pairs {pairs : List (String × String)} (valued : ∀ pair ∈ pairs, takesValue pair.1 = true) :
    options (pairs.flatMap (fun pair => [pair.1,pair.2])) = pairs := by
  induction pairs with
  | nil => rfl
  | cons pair rest ih =>
    rw [List.forall_mem_cons] at valued
    rw [List.flatMap_cons,List.cons_append,List.singleton_append,options_value valued.1,ih valued.2]

private theorem mem_deviceArgs {eal : Eal} {device : String × String} (member : device ∈ deviceArgs eal) :
    device.1 = "-a" ∨ device.1 = "--vdev" := by
  unfold deviceArgs at member
  split at member
  · obtain ⟨_,-,rfl⟩ := List.mem_map.mp member
    exact .inl rfl
  · obtain ⟨_,-,rfl⟩ := List.mem_map.mp member
    exact .inr rfl

theorem devices_ealArgs (eal : Eal) (lcore : Int) : devices (ealArgs eal lcore) = deviceArgs eal := by
  have valued : ∀ device ∈ deviceArgs eal, takesValue device.1 = true := by
    intro device member
    rcases mem_deviceArgs member with option | option <;> rw [option] <;> decide
  have tail : options ((if eal.vdevs.isEmpty then [] else ["--no-pci","--in-memory"]) ++
      (deviceArgs eal).flatMap (fun device => [device.1,device.2])) = deviceArgs eal := by
    split
    · rw [List.nil_append,options_pairs valued]
    · rw [List.cons_append,List.singleton_append,options_skip (by decide),options_skip (by decide),options_pairs valued]
  have simd : takesValue ("--force-max-simd-bitwidth=" ++ toString kMaxSimdBitwidth) = false := by decide
  have all : (deviceArgs eal).filter namesDevice = deviceArgs eal := by
    rw [List.filter_eq_self]
    intro device member
    rcases mem_deviceArgs member with option | option <;> simp [namesDevice,option]
  have head : options (ealArgs eal lcore) = [("-l",toString lcore),("--main-lcore",toString lcore),("-n","4"),
      ("--file-prefix",fileLabel eal)] ++ deviceArgs eal := by
    rw [ealArgs,List.append_assoc]
    simp only [List.cons_append,List.nil_append]
    rw [options_skip (by decide),options_value (by decide),options_value (by decide),options_value (by decide),
      options_value (by decide),options_skip simd,tail]
  rw [devices,head,List.filter_append,all]
  simp [namesDevice]

theorem firsts_nodup (entries : List String) : ((firsts entries).map key).Nodup := by
  induction entries with
  | nil => exact List.nodup_nil
  | cons entry rest ih =>
    rw [firsts,List.map_cons,List.nodup_cons]
    refine ⟨?_,ih.sublist (List.filter_sublist.map key)⟩
    intro member
    obtain ⟨found,listed,keys⟩ := List.mem_map.mp member
    simpa [keys] using (List.mem_filter.mp listed).2

private theorem firsts_append (entries : List String) (entry : String) :
    firsts (entries ++ [entry]) = addUnique (firsts entries) entry := by
  induction entries with
  | nil => rfl
  | cons first rest ih =>
    rw [List.cons_append,firsts,ih,firsts,addUnique,addUnique]
    rcases eq_or_ne (key first) (key entry) with same | other
    · have absent : ∀ kept : List String, (kept ++ [entry]).filter (fun e => key e ≠ key first) =
          kept.filter (fun e => key e ≠ key first) := by
        intro kept
        simp [same]
      rw [if_pos (show List.any (first :: _) _ = true by simp [same])]
      split
      · rfl
      · rw [absent]
    · have still : ((firsts rest).filter (fun e => key e ≠ key first)).any (fun e => key e = key entry) =
          (firsts rest).any (fun e => key e = key entry) := by
        rw [List.any_filter]
        congr 1
        funext e
        by_cases here : key e = key entry <;> simp [here,Ne.symm other]
      rw [List.any_cons,still]
      simp only [decide_eq_false other,Bool.false_or]
      split
      · rfl
      · simp [Ne.symm other]

private theorem addUnique_listed {v : List String} {entry : String} (listed : key entry ∈ v.map key) :
    addUnique v entry = v := by
  obtain ⟨e,member,same⟩ := List.mem_map.mp listed
  exact if_pos (List.any_eq_true.mpr ⟨e,member,by simpa using same⟩)

private theorem takeWhile_until_comma {name rest : List Char} (plain : ',' ∉ name) :
    (name ++ ',' :: rest).takeWhile (fun c => c ≠ ',') = name := by
  have all : ∀ c ∈ name, decide (c ≠ ',') = true := fun c member => by
    simpa using fun same : c = ',' => plain (same ▸ member)
  rw [List.takeWhile_append_of_pos all]
  simp

private theorem key_plain {name : String} (plain : ',' ∉ name.toList) : key name = name.toList := by
  refine List.takeWhile_eq_self_iff.mpr fun c member => ?_
  simpa using fun same : c = ',' => plain (same ▸ member)

private theorem key_bdfEntry {pci : String} (devargs : String) (plain : ',' ∉ pci.toList) :
    key (bdfEntry pci devargs) = pci.toList := by
  unfold bdfEntry
  split
  · exact key_plain plain
  · have parts : (pci ++ "," ++ devargs).toList = pci.toList ++ ',' :: devargs.toList := by
      simp [String.toList_append]
    rw [key,parts]
    exact takeWhile_until_comma plain

theorem vname_toList (count : Nat) : (vname count).toList = "net_af_xdp".toList ++ Nat.toDigits 10 count := by
  rw [vname,String.toList_append]
  exact congrArg _ Nat.toList_repr

private theorem vname_plain {count : Nat} {c : Char} (member : c ∈ (vname count).toList) : c ≠ ',' ∧ c ≠ ':' := by
  rw [vname_toList,List.mem_append] at member
  rcases member with letter | digit
  · have all : ∀ c ∈ "net_af_xdp".toList, c ≠ ',' ∧ c ≠ ':' := by simp
    exact all c letter
  · have isDigit := Nat.isDigit_of_mem_toDigits (by decide) (by decide) digit
    constructor <;> (rintro rfl; revert isDigit; decide)

private theorem vname_injective {first second : Nat} (same : vname first = vname second) : first = second := by
  have lists := congrArg String.toList same
  rw [vname_toList,vname_toList] at lists
  have digits := congrArg (fun chars => Nat.ofDigitChars 10 chars 0) (List.append_cancel_left lists)
  rwa [Nat.ofDigitChars_toDigits (by decide) (by decide),Nat.ofDigitChars_toDigits (by decide) (by decide)] at digits

theorem key_vdevEntry (count : Nat) (ifname : String) : key (vdevEntry count ifname) = (vname count).toList := by
  have parts : (vdevEntry count ifname).toList = (vname count).toList ++ ',' ::
      ("iface=" ++ ifname ++ ",start_queue=0,queue_count=1,mode=drv,busy_budget=64").toList := by
    simp [vdevEntry,String.toList_append]
  rw [key,parts]
  exact takeWhile_until_comma fun member => (vname_plain member).1 rfl

inductive Outcome (o : Port) (eal : Eal) : Port × Option Registration × Bool → Prop
  | again (done : o.prepared = true) : Outcome o eal (o,none,true)
  | failed (port : Port) (fresh : o.prepared = false) (still : port.prepared = false) : Outcome o eal (port,none,false)
  | virtual (port : Port) (fresh : o.prepared = false) (done : port.prepared = true) (kind : port.afxdpPmd = true)
      (name : port.pci = vname eal.vdevs.length) :
      Outcome o eal (port,some (.vdev (vdevEntry eal.vdevs.length o.ifname)),true)
  | bound (port : Port) (fresh : o.prepared = false) (done : port.prepared = true) (kind : port.afxdpPmd = false)
      (address : IsBdf port.pci) : Outcome o eal (port,some (.allowedBdf (bdfEntry port.pci o.devargs)),true)

private theorem prepare_outcome (o : Port) (eal : Eal) (bifurcated afxdpPMD : Bool) (host : Host) :
    Outcome o eal (prepare o eal bifurcated afxdpPMD host) := by
  unfold prepare
  split
  · next done => exact .again done
  · next fresh =>
    have fresh := Bool.eq_false_iff.mpr fresh
    split
    · next kind => exact .virtual _ fresh rfl kind rfl
    · next kind =>
      dsimp only
      split
      · exact .failed _ fresh fresh
      · next found =>
        split
        · exact .failed _ fresh fresh
        · exact .bound {o with bifurcated := bifurcated, afxdpPmd := afxdpPMD, pci := host.pci, prepared := true}
            fresh rfl (Bool.eq_false_iff.mpr kind) (Host.pci_isBdf found)

structure Registered (s : State) : Prop where
  notYet : s.eal.ealInited = false
  bdfs : s.eal.allowedBdfs = firsts (bdfEntries s.registered)
  vdevs : s.eal.vdevs = firsts (vdevEntries s.registered)
  names : s.eal.vdevs.map key = (List.range s.eal.vdevs.length).map (fun n => (vname n).toList)
  bound : ∀ o ∈ s.ports, o.prepared = true → o.afxdpPmd = false →
    IsBdf o.pci ∧ o.pci.toList ∈ s.eal.allowedBdfs.map key
  virtual : ∀ o ∈ s.ports, o.prepared = true → o.afxdpPmd = true → o.pci.toList ∈ s.eal.vdevs.map key
  known : ∀ e ∈ s.eal.allowedBdfs, ∃ o ∈ s.ports, o.prepared = true ∧ o.afxdpPmd = false ∧ o.pci.toList = key e

theorem mem_set_of_prepared {ports : List Port} {i : Nat} {old other : Port} (here : ports[i]? = some old)
    (fresh : old.prepared = false) (port : Port) (member : other ∈ ports) (done : other.prepared = true) :
    other ∈ ports.set i port := by
  obtain ⟨j,there⟩ := List.mem_iff_getElem?.mp member
  refine List.mem_iff_getElem?.mpr ⟨j,?_⟩
  rw [List.getElem?_set]
  split
  · next same =>
    subst same
    cases Option.some.inj (here.symm.trans there)
    rw [fresh] at done
    cases done
  · exact there

private theorem registered_failed {s : State} {i : Nat} {old : Port} (valid : Registered s) (here : s.ports[i]? = some old)
    (fresh : old.prepared = false) {port : Port} (still : port.prepared = false) :
    Registered {s with ports := s.ports.set i port} := by
  obtain ⟨notYet,bdfs,vdevs,names,bound,virtual,known⟩ := valid
  refine ⟨notYet,bdfs,vdevs,names,fun o member done => ?_,fun o member done => ?_,fun e listed => ?_⟩
  · rcases List.mem_or_eq_of_mem_set member with before | rfl
    · exact bound o before done
    · rw [still] at done
      cases done
  · rcases List.mem_or_eq_of_mem_set member with before | rfl
    · exact virtual o before done
    · rw [still] at done
      cases done
  · obtain ⟨o,member,done,rest⟩ := known e listed
    exact ⟨o,mem_set_of_prepared here fresh port member done,done,rest⟩

private theorem addUnique_subset (v : List String) (entry : String) : v ⊆ addUnique v entry := by
  unfold addUnique
  split
  · exact List.Subset.refl v
  · exact List.subset_append_left ..

private theorem addUnique_key (v : List String) (entry : String) : key entry ∈ (addUnique v entry).map key := by
  unfold addUnique
  split
  · next listed =>
    obtain ⟨e,member,same⟩ := List.any_eq_true.mp listed
    exact List.mem_map.mpr ⟨e,member,by simpa using same⟩
  · simp

private theorem mem_addUnique {v : List String} {entry e : String} (member : e ∈ addUnique v entry) :
    e ∈ v ∨ e = entry := by
  unfold addUnique at member
  split at member
  · exact .inl member
  · simpa using member

private theorem addUnique_vdev {s : State} (valid : Registered s) (ifname : String) :
    addUnique s.eal.vdevs (vdevEntry s.eal.vdevs.length ifname) =
      s.eal.vdevs ++ [vdevEntry s.eal.vdevs.length ifname] := by
  refine if_neg fun listed => ?_
  obtain ⟨e,member,same⟩ := List.any_eq_true.mp listed
  have taken : (vname s.eal.vdevs.length).toList ∈ s.eal.vdevs.map key :=
    List.mem_map.mpr ⟨e,member,by rw [← key_vdevEntry s.eal.vdevs.length ifname]; simpa using same⟩
  rw [valid.names] at taken
  obtain ⟨n,inside,twice⟩ := List.mem_map.mp taken
  have equal := vname_injective (String.toList_inj.mp twice)
  rw [List.mem_range,equal] at inside
  omega

private theorem registered_virtual {s : State} {i : Nat} {old : Port} (valid : Registered s) (here : s.ports[i]? = some old)
    (fresh : old.prepared = false) {port : Port} (kind : port.afxdpPmd = true)
    (name : port.pci = vname s.eal.vdevs.length) :
    Registered ⟨s.eal.add (.vdev (vdevEntry s.eal.vdevs.length old.ifname)),s.ports.set i port,
      s.registered ++ [.vdev (vdevEntry s.eal.vdevs.length old.ifname)]⟩ := by
  have added := addUnique_vdev valid old.ifname
  obtain ⟨notYet,bdfs,vdevs,names,bound,virtual,known⟩ := valid
  refine ⟨notYet,?_,?_,?_,fun o member done plain => ?_,fun o member done afxdp => ?_,fun e listed => ?_⟩
  · simpa [Eal.add,bdfEntries] using bdfs
  · have appended : vdevEntries (s.registered ++ [.vdev (vdevEntry s.eal.vdevs.length old.ifname)]) =
        vdevEntries s.registered ++ [vdevEntry s.eal.vdevs.length old.ifname] := by simp [vdevEntries]
    rw [appended,firsts_append,← vdevs]
    rfl
  · simp only [Eal.add,added,List.map_append,List.length_append,List.map_cons,List.map_nil,List.length_singleton,
      List.range_succ,names,key_vdevEntry]
  · rcases List.mem_or_eq_of_mem_set member with before | rfl
    · exact bound o before done plain
    · rw [kind] at plain
      cases plain
  · simp only [Eal.add,added,List.map_append]
    rcases List.mem_or_eq_of_mem_set member with before | rfl
    · exact List.mem_append_left _ (virtual o before done afxdp)
    · rw [name,← key_vdevEntry s.eal.vdevs.length old.ifname]
      simp
  · obtain ⟨o,member,done,rest⟩ := known e listed
    exact ⟨o,mem_set_of_prepared here fresh port member done,done,rest⟩

private theorem registered_bound {s : State} {i : Nat} {old : Port} (valid : Registered s) (here : s.ports[i]? = some old)
    (fresh : old.prepared = false) {port : Port} (done : port.prepared = true) (kind : port.afxdpPmd = false)
    (address : IsBdf port.pci) (devargs : String) :
    Registered ⟨s.eal.add (.allowedBdf (bdfEntry port.pci devargs)),s.ports.set i port,
      s.registered ++ [.allowedBdf (bdfEntry port.pci devargs)]⟩ := by
  have named := key_bdfEntry devargs address.1
  obtain ⟨notYet,bdfs,vdevs,names,bound,virtual,known⟩ := valid
  refine ⟨notYet,?_,?_,names,fun o member ready plain => ?_,fun o member ready afxdp => ?_,fun e listed => ?_⟩
  · have appended : bdfEntries (s.registered ++ [.allowedBdf (bdfEntry port.pci devargs)]) =
        bdfEntries s.registered ++ [bdfEntry port.pci devargs] := by simp [bdfEntries]
    rw [appended,firsts_append,← bdfs]
    rfl
  · simpa [Eal.add,vdevEntries] using vdevs
  · rcases List.mem_or_eq_of_mem_set member with before | rfl
    · obtain ⟨isBdf,listed⟩ := bound o before ready plain
      exact ⟨isBdf,List.map_subset key (addUnique_subset ..) listed⟩
    · exact ⟨address,named ▸ addUnique_key s.eal.allowedBdfs (bdfEntry o.pci devargs)⟩
  · rcases List.mem_or_eq_of_mem_set member with before | rfl
    · exact virtual o before ready afxdp
    · rw [kind] at afxdp
      cases afxdp
  · rcases mem_addUnique listed with before | rfl
    · obtain ⟨o,member,ready,rest⟩ := known e before
      exact ⟨o,mem_set_of_prepared here fresh port member ready,ready,rest⟩
    · have inside := (List.getElem?_eq_some_iff.mp here).1
      exact ⟨port,List.mem_set inside port,done,kind,named.symm⟩

private theorem registered_step {s t : State} {call : Call} (valid : Registered s) (moved : step s call = some t) :
    Registered t := by
  obtain ⟨old,here,rfl⟩ := Option.map_eq_some_iff.mp moved
  have outcome := prepare_outcome old s.eal call.bifurcated call.afxdpPMD call.host
  generalize prepare old s.eal call.bifurcated call.afxdpPMD call.host = result at outcome
  cases outcome with
  | again done =>
    obtain ⟨inside,same⟩ := List.getElem?_eq_some_iff.mp here
    have unchanged : s.ports.set call.index old = s.ports := by
      rw [← same]
      exact List.set_getElem_self inside
    simpa [unchanged] using valid
  | failed port fresh still => simpa using registered_failed valid here fresh still
  | virtual port fresh done kind name => exact registered_virtual valid here fresh kind name
  | bound port fresh done kind address => exact registered_bound valid here fresh done kind address old.devargs

private theorem registered_start {ports : List Port} (fresh : ∀ o ∈ ports, o.prepared = false) :
    Registered (start ports) := by
  refine ⟨rfl,rfl,rfl,rfl,fun o member done => ?_,fun o member done => ?_,nofun⟩
  · rw [fresh o member] at done
    cases done
  · rw [fresh o member] at done
    cases done

theorem ealInit_lists {s : State} (valid : Registered s) {o : Port} (member : o ∈ s.ports) (ready : o.prepared = true)
    (rc : Int) :
    ∃ eal ok, ealInit s.eal o.pci o.lcore rc = (eal,some (ealArgs eal o.lcore),ok) ∧
      eal.allowedBdfs = s.eal.allowedBdfs ∧ eal.vdevs = s.eal.vdevs := by
  have listed : (if s.eal.vdevs.isEmpty then s.eal.add (.allowedBdf o.pci) else s.eal) = s.eal := by
    split
    · next empty =>
      have plain : o.afxdpPmd = false := by
        cases kind : o.afxdpPmd with
        | false => rfl
        | true =>
          have virtual := valid.virtual o member ready kind
          rw [List.isEmpty_iff.mp empty] at virtual
          cases virtual
      obtain ⟨address,known⟩ := valid.bound o member ready plain
      rw [Eal.add,addUnique_listed (by rw [key_plain address.1]; exact known)]
    · rfl
  unfold ealInit
  rw [if_neg (by simp [valid.notYet])]
  dsimp only
  rw [listed]
  split
  · exact ⟨_,_,rfl,rfl,rfl⟩
  · exact ⟨_,_,rfl,rfl,rfl⟩

private theorem named_of_vdevs {eal : Eal} (some : eal.vdevs ≠ []) (lcore : Int) :
    named (ealArgs eal lcore) = eal.vdevs.map key := by
  rw [named,devices_ealArgs,deviceArgs,if_neg (by simpa using some),List.map_map]
  rfl

private theorem named_of_bdfs {eal : Eal} (none : eal.vdevs = []) (lcore : Int) :
    named (ealArgs eal lcore) = eal.allowedBdfs.map key := by
  rw [named,devices_ealArgs,deviceArgs,if_pos (by simp [none]),List.map_map]
  rfl

/-- The argument vector has the devices of one kind, each with the entry of its first
registration and in that order, and names no device twice. It names every prepared port
once exactly if the ports are all of one kind: one virtual device drops all the PCI ones. -/
theorem eal_names_every_port_iff {ports : List Port} (fresh : ∀ o ∈ ports, o.prepared = false) {calls : List Call}
    {s : State} (ran : run step (start ports) calls = some s) {o : Port} (member : o ∈ s.ports)
    (ready : o.prepared = true) (rc : Int) :
    ∃ eal args ok, ealInit s.eal o.pci o.lcore rc = (eal,some args,ok) ∧
      s.eal.allowedBdfs = firsts (bdfEntries s.registered) ∧ s.eal.vdevs = firsts (vdevEntries s.registered) ∧
      devices args = (if s.eal.vdevs = [] then s.eal.allowedBdfs.map (fun entry => ("-a",entry))
        else s.eal.vdevs.map (fun entry => ("--vdev",entry))) ∧
      (named args).Nodup ∧
      ((∀ q ∈ s.ports, q.prepared = true → (named args).count q.pci.toList = 1) ↔
        s.eal.vdevs = [] ∨ s.eal.allowedBdfs = []) := by
  have valid := reachable_invariant Registered (fun _ _ _ valid moved => registered_step valid moved)
    (registered_start fresh) ran
  obtain ⟨eal,ok,result,bdfs,vdevs⟩ := ealInit_lists valid member ready rc
  have listed : devices (ealArgs eal o.lcore) = if s.eal.vdevs = [] then s.eal.allowedBdfs.map (fun entry => ("-a",entry))
      else s.eal.vdevs.map (fun entry => ("--vdev",entry)) := by
    rw [devices_ealArgs,deviceArgs,bdfs,vdevs]
    simp only [List.isEmpty_iff]
  have ofVdevs (some : s.eal.vdevs ≠ []) : named (ealArgs eal o.lcore) = s.eal.vdevs.map key := by
    rw [← vdevs] at some ⊢
    exact named_of_vdevs some o.lcore
  have ofBdfs (none : s.eal.vdevs = []) : named (ealArgs eal o.lcore) = s.eal.allowedBdfs.map key := by
    rw [← vdevs] at none
    rw [← bdfs]
    exact named_of_bdfs none o.lcore
  have nodup : (named (ealArgs eal o.lcore)).Nodup := by
    rcases eq_or_ne s.eal.vdevs [] with none | some
    · rw [ofBdfs none,valid.bdfs]
      exact firsts_nodup _
    · rw [ofVdevs some,valid.vdevs]
      exact firsts_nodup _
  refine ⟨eal,_,ok,result,valid.bdfs,valid.vdevs,listed,nodup,fun all => ?_,fun one q there done => ?_⟩
  · rcases eq_or_ne s.eal.vdevs [] with none | some
    · exact .inl none
    · refine .inr (List.eq_nil_iff_forall_not_mem.mpr fun e listed => ?_)
      obtain ⟨q,there,done,plain,address⟩ := valid.known e listed
      have counted := all q there done
      have found := List.count_pos_iff.mp (by omega : 0 < (named (ealArgs eal o.lcore)).count q.pci.toList)
      rw [ofVdevs some,valid.names] at found
      obtain ⟨n,-,same⟩ := List.mem_map.mp found
      -- A bus address has a colon, the name of a virtual device has none.
      have colon := (valid.bound q there done plain).1.2
      rw [← same] at colon
      exact (vname_plain colon).2 rfl
  · apply List.count_eq_one_of_mem nodup
    cases kind : q.afxdpPmd with
    | false =>
      have known := (valid.bound q there done kind).2
      have none : s.eal.vdevs = [] := one.resolve_right fun empty => by
        rw [empty] at known
        cases known
      rw [ofBdfs none]
      exact known
    | true =>
      have known := valid.virtual q there done kind
      have some : s.eal.vdevs ≠ [] := fun empty => by
        rw [empty] at known
        cases known
      rw [ofVdevs some]
      exact known

private theorem firstSlot_isBdf : "0000:01:00.0" = "" ∨ IsBdf "0000:01:00.0" := .inr (by unfold IsBdf; decide)

private theorem noAddress : "" = "" ∨ IsBdf "" := .inl rfl

def firstSlot : Host := ⟨"0000:01:00.0","",true,firstSlot_isBdf,noAddress⟩

def twoPorts : List Port := [construct "enp1s0" 2,construct "enp2s0" 2]

private theorem twoPorts_fresh : ∀ o ∈ twoPorts, o.prepared = false := by
  simp [twoPorts,construct]

theorem eal_names_registered_twice :
    ∃ s eal args ok, run step (start twoPorts)
        [⟨0,false,false,firstSlot⟩,⟨1,true,false,firstSlot⟩,⟨0,false,false,firstSlot⟩] = some s ∧
      ealInit s.eal "0000:01:00.0" 2 0 = (eal,some args,ok) ∧ s.registered.length = 2 ∧
      devices args = [("-a","0000:01:00.0")] ∧
      ∀ q ∈ s.ports, q.prepared = true → (named args).count q.pci.toList = 1 := by
  have ran : run step (start twoPorts)
    [⟨0,false,false,firstSlot⟩,⟨1,true,false,firstSlot⟩,⟨0,false,false,firstSlot⟩] = some _ := rfl
  obtain ⟨eal,args,ok,result,-,-,listed,-,all⟩ :=
    eal_names_every_port_iff twoPorts_fresh ran (List.mem_cons_self ..) rfl 0
  exact ⟨_,eal,args,ok,ran,result,rfl,listed,all.mpr (.inl rfl)⟩

/-- With one PCI port and one AF_XDP port prepared, the vector does not name the PCI port. -/
theorem vdev_suppresses_bdf :
    ∃ s eal args, run step (start twoPorts) [⟨0,false,false,firstSlot⟩,⟨1,false,true,firstSlot⟩] = some s ∧
      ealInit s.eal "0000:01:00.0" 2 0 = (eal,some args,true) ∧
      devices args = [("--vdev",vdevEntry 0 "enp2s0")] ∧
      (s.ports.map (fun q => (q.prepared,q.pci)) = [(true,"0000:01:00.0"),(true,vname 0)]) ∧
      (named args).count "0000:01:00.0".toList = 0 := by
  refine ⟨_,_,_,rfl,rfl,devices_ealArgs _ _,rfl,?_⟩
  rw [named,devices_ealArgs]
  decide

end Abtrda3.DpdkEal
