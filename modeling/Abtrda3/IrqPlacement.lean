import Abtrda3.NicTuner

/-! Where interrupts are handled once several tuners have been made, on a machine whose
interrupts and CPUs stay the same. Each tuner asks for every interrupt anew, so the last of
them decides. -/
namespace Abtrda3.IrqPlacement
open Abtrda3.NicIrqs Abtrda3.NicTuner Abtrda3.Semantics.Interaction Abtrda3.Semantics.Interaction.Program
open Abtrda3.Semantics.Machine (run Along run_invariant)

section CpuLists

/-- The CPUs a list in the kernel's format names, as far as it has no ranges. -/
def readCpuList (text : List Char) : List Nat :=
  if text = [] then [] else (text.splitOn ',').map (fun digits => Nat.ofDigitChars 10 digits 0)

def otherCpus (core : Int) (cpus : List Nat) : List Nat := cpus.filter (fun cpu : Nat => (cpu : Int) ≠ core)

private theorem foldl_listAnother (core : Int) (result : List Char) (cpus : List Nat) :
    cpus.foldl (listAnother core) result = result ++ ((if result = [] ∨ otherCpus core cpus = [] then [] else [',']) ++
      [','].intercalate ((otherCpus core cpus).map (Nat.toDigits 10))) := by
  induction cpus generalizing result with
  | nil => simp [otherCpus,List.intercalate]
  | cons i rest ih =>
    rw [List.foldl_cons,ih,listAnother]
    by_cases here : (i : Int) = core
    · have skipped : otherCpus core (i::rest) = otherCpus core rest := List.filter_cons_of_neg (by simpa using here)
      rw [if_pos here,skipped]
    · have taken : otherCpus core (i::rest) = i :: otherCpus core rest := List.filter_cons_of_pos (by simpa using here)
      rw [if_neg here,taken]
      cases others : otherCpus core rest with
      | nil => by_cases empty : result = [] <;> simp [empty,List.intercalate]
      | cons j more =>
        simp only [List.map_cons,List.intercalate_cons_cons]
        by_cases empty : result = [] <;> simp [empty]

private theorem cpuListExcluding_eq (nproc core : Int) :
    cpuListExcluding nproc core = [','].intercalate ((otherCpus core (List.range nproc.toNat)).map (Nat.toDigits 10)) := by
  rw [cpuListExcluding,foldl_listAnother]
  simp

private theorem digits_not_comma (n : Nat) : ',' ∉ Nat.toDigits 10 n := by
  intro member
  have digit := Nat.isDigit_of_mem_toDigits (by decide) (by decide) member
  revert digit
  decide

/-- The list names the other CPUs and no more. -/
theorem readCpuList_cpuListExcluding (nproc core : Int) :
    readCpuList (cpuListExcluding nproc core) = otherCpus core (List.range nproc.toNat) := by
  rw [cpuListExcluding_eq]
  cases others : otherCpus core (List.range nproc.toNat) with
  | nil => rfl
  | cons i rest =>
    have filled : [','].intercalate ((i::rest).map (Nat.toDigits 10)) ≠ [] := by
      cases rest with
      | nil => simp [List.intercalate]
      | cons j more => simp [List.intercalate_cons_cons]
    rw [readCpuList,if_neg filled,List.splitOn_intercalate ',' ?_ (by simp)]
    · rw [List.map_map]
      refine (List.map_congr_left (fun n _ => ?_)).trans (List.map_id _)
      exact Nat.ofDigitChars_toDigits (by decide) (by decide)
    · intro digits member
      obtain ⟨n,_,rfl⟩ := List.mem_map.mp member
      exact digits_not_comma n

private theorem readCpuList_coreStr {core : Nat} (short : core < 10^7) : readCpuList (coreStr core) = [core] := by
  have whole : coreStr core = Nat.toDigits 10 core := by
    refine List.take_of_length_le ?_
    exact Nat.length_toDigits_le_iff (by decide) (by decide) |>.mpr short
  have alone : ([','].intercalate [Nat.toDigits 10 core]).splitOn ',' = [Nat.toDigits 10 core] :=
    List.splitOn_intercalate ',' (by simpa using digits_not_comma core) (by simp)
  rw [List.intercalate_singleton] at alone
  rw [whole,readCpuList,if_neg Nat.toDigits_ne_nil,alone,List.map_singleton,
    Nat.ofDigitChars_toDigits (by decide) (by decide)]

end CpuLists

/-- Several tuners one after the other, as `main` makes one for each port of a single process. -/
def constructAll (beyond : Int → Int) (tunings : List Tuning) : Driver Unit :=
  each (fun t => (construct beyond t).bind (fun _ => .done ())) tunings

def follow (s : Machine) (exchange : Exchange Call Reply) : Option Machine := some (s.effect exchange)

/-- The table of interrupts, the directory of them and the CPUs stay as they are, and the
kernel takes every interrupt to where it is asked for but some. -/
structure Host where
  interrupts : List Char
  irqEntries : List (List Char)
  nproc : Int
  refused : List Int

namespace Host

def answers (host : Host) : Exchange Call Reply → Bool
  | ⟨.readInterrupts,file⟩ => (file : Option (List Char)) = some host.interrupts
  | ⟨.onlineCpus,nproc⟩ => (nproc : Int) = host.nproc
  | ⟨.listDir path,entries⟩ => path ≠ irqDir || (entries : Option (List (List Char))) = some host.irqEntries
  | ⟨.writeFile path _,accepted⟩ =>
    !("/proc/irq/".toList.isPrefixOf path) || (accepted : Bool) = !(host.refused.any (fun irq => path = affinityPath irq))
  | _ => true

def nicIrqs (beyond : Int → Int) (host : Host) (interface : List Char) : List Int :=
  findNicIrqs beyond (some host.interrupts) interface

def irqs (beyond : Int → Int) (host : Host) : List Int :=
  ((host.irqEntries.filter numbered).map (atoi beyond)).filter (· ≠ 0)

def handles (beyond : Int → Int) (host : Host) (t : Tuning) (irq : Int) : Option (List Char) :=
  if irq ∈ host.nicIrqs beyond t.interface then some (coreStr t.cpuCore)
  else if irq ∈ host.irqs beyond then some (cpuListExcluding host.nproc t.cpuCore)
  else none

end Host

variable {beyond : Int → Int} {t : Tuning} {host : Host} {s u : Machine}

private theorem follow_of_watch (s : Machine) (exchange : Exchange Call Reply) (u : Machine)
    (watched : watch beyond t s exchange = some u) :
    follow s exchange = some u := (Option.ite_none_right_eq_some.mp watched).2

private theorem decided_of_told (told : Told (fun _ exchange => host.answers exchange = true) u) (irq : Int) :
    decided beyond t u irq = host.handles beyond t irq := by
  obtain ⟨⟨_,file⟩,⟨_,nproc⟩,⟨_,entries,listed,same⟩⟩ := told
  have interrupts : u.interrupts = some host.interrupts := of_decide_eq_true file
  have cpus : u.cpus = host.nproc := of_decide_eq_true nproc
  have irqs : u.listed irqDir = host.irqEntries := by
    have answered : entries = some host.irqEntries := by simpa [Host.answers] using listed
    rw [same,answered]
    rfl
  unfold decided Host.handles Machine.strayIrqs Machine.nicIrqs
  rw [interrupts,cpus,irqs]
  by_cases nic : irq ∈ host.nicIrqs beyond t.interface
  · rw [if_pos nic]
    exact if_pos nic
  · have stray : irq ∈ host.irqEntries.filterMap (strayIrq beyond (findNicIrqs beyond (some host.interrupts) t.interface)) ↔
        irq ∈ host.irqs beyond := by
      simp only [List.mem_filterMap,strayIrq,Option.ite_none_right_eq_some,Option.some.injEq,Host.irqs,
        List.mem_filter,List.mem_map]
      constructor
      · rintro ⟨entry,member,⟨number,nonzero,_⟩,rfl⟩
        exact ⟨⟨entry,⟨member,number⟩,rfl⟩,by simpa using nonzero⟩
      · rintro ⟨⟨entry,⟨member,number⟩,rfl⟩,nonzero⟩
        exact ⟨entry,member,⟨number,by simpa using nonzero,nic⟩,rfl⟩
    rw [if_neg nic]
    refine (if_neg nic).trans ?_
    simp only [stray]

private theorem constructAll_spec (tunings : List Tuning) :
    Safe follow (fun _ exchange => host.answers exchange = true) s (constructAll beyond tunings) (fun _ u => ∀ irq,
      u.asked (affinityPath irq) = tunings.foldl (fun before t =>
        (if t.mode = .Off then none else host.handles beyond t irq).or before) (s.asked (affinityPath irq))) := by
  induction tunings generalizing s with
  | nil => exact fun irq => rfl
  | cons t rest ih =>
    have first : Safe (watch beyond t) (fun _ exchange => host.answers exchange = true) s (construct beyond t) _ :=
        construct_spec
    refine safe_bind.mpr (safe_bind.mpr ((first.relax follow_of_watch).mono ?_))
    intro _ u made
    refine ih.mono (fun _ v later irq => ?_)
    rw [later irq,List.foldl_cons]
    congr 1
    split at made
    next off => rw [if_pos off,made.asked irq]; rfl
    next on => rw [if_neg on,made.2 irq,decided_of_told made.1]

private theorem files_effect {exchange : Exchange Call Reply} {irq : Int} (answered : host.answers exchange = true)
    (free : irq ∉ host.refused) (same : s.files (affinityPath irq) = s.asked (affinityPath irq)) :
    (s.effect exchange).files (affinityPath irq) = (s.effect exchange).asked (affinityPath irq) := by
  obtain ⟨request,reply⟩ := exchange
  cases request with
  | writeFile path value =>
    by_cases here : affinityPath irq = path
    · subst here
      have inside : "/proc/irq/".toList.isPrefixOf (affinityPath irq) = true :=
        List.isPrefixOf_iff_prefix.mpr (List.prefix_append _ _)
      have movable : host.refused.any (fun other => affinityPath irq = affinityPath other) = false := by
        rw [List.any_eq_false]
        intro other member same
        rw [affinityPath_injective (of_decide_eq_true same)] at free
        exact free member
      have accepted : reply = true := by
        rw [Host.answers,inside,movable] at answered
        simpa using answered
      simp [Machine.effect,accepted]
    · have kept : (s.effect ⟨.writeFile path value,reply⟩).files (affinityPath irq) = s.files (affinityPath irq) := by
        cases reply <;> simp [Machine.effect,here]
      rw [kept,same]
      simp [Machine.effect,here]
  | _ => exact same

private theorem files_of_run {trace : List (Exchange Call Reply)}
    (answered : Along follow (fun _ exchange => host.answers exchange = true)
    Machine.start trace) (ran : run follow Machine.start trace = some u) {irq : Int} (free : irq ∉ host.refused) :
    u.files (affinityPath irq) = u.asked (affinityPath irq) := by
  refine run_invariant (fun s => s.files (affinityPath irq) = s.asked (affinityPath irq)) ?_ rfl answered ran
  intro s exchange v same answered moved
  rw [← Option.some.inj moved]
  exact files_effect answered free same

private theorem foldl_off {irq : Int} {tunings : List Tuning} (off : ∀ t ∈ tunings, t.mode = .Off)
    (before : Option (List Char)) :
    tunings.foldl (fun before t => (if t.mode = .Off then none else host.handles beyond t irq).or before)
      before = before := by
  induction tunings with
  | nil => rfl
  | cons t rest ih =>
    rw [List.forall_mem_cons] at off
    rw [List.foldl_cons,if_pos off.1]
    exact ih off.2

/-- Over any tuners made one after the other, where an interrupt is handled is decided by the
last that is not off, and by it alone: on its core if `findNicIrqs` finds the interrupt for its
interface, on all CPUs but this core otherwise, whatever an earlier tuner has pinned it to. -/
theorem last_tuner_decides (beyond : Int → Int) (host : Host) (before after : List Tuning) (last : Tuning)
    (on : last.mode ≠ .Off) (off : ∀ t ∈ after, t.mode = .Off) {trace : List (Exchange Call Reply)}
    (ran : Runs (constructAll beyond (before ++ last :: after)) trace ())
    (answered : Along follow (fun _ exchange => host.answers exchange = true) Machine.start trace) :
    ∃ u, run follow Machine.start trace = some u ∧ ∀ irq ∉ host.refused,
      (irq ∈ host.nicIrqs beyond last.interface → ∃ pin, u.files (affinityPath irq) = some pin ∧
        ∀ core : Nat, last.cpuCore = core → core < 10^7 → readCpuList pin = [core]) ∧
      (irq ∈ host.irqs beyond → irq ∉ host.nicIrqs beyond last.interface → ∃ mask, u.files (affinityPath irq) = some mask ∧
        readCpuList mask = otherCpus last.cpuCore (List.range host.nproc.toNat)) := by
  have safe : Safe follow (fun _ exchange => host.answers exchange = true) Machine.start
      (constructAll beyond (before ++ last :: after)) _ := constructAll_spec _
  obtain ⟨u,watched,asked⟩ := safe.run ran answered
  refine ⟨u,watched,fun irq free => ?_⟩
  have decision := asked irq
  rw [List.foldl_append,List.foldl_cons,foldl_off off,if_neg on] at decision
  rw [files_of_run answered watched free,decision]
  constructor
  · intro nic
    rw [Host.handles,if_pos nic]
    exact ⟨_,rfl,fun core same short => by rw [same,readCpuList_coreStr short]⟩
  · intro listed other
    rw [Host.handles,if_neg other,if_pos listed]
    exact ⟨_,rfl,readCpuList_cpuListExcluding host.nproc last.cpuCore⟩

section Lab

def labHost : Host := ⟨labInterrupts,labIrqEntries,4,[1]⟩

def labPair : List Tuning := [⟨"eno1".toList,2,.Full⟩,⟨"eno2".toList,3,.Full⟩]

def labTuned : List (Exchange Call Reply) × Unit := exec labSystem () (constructAll id labPair)

/-- The first port's interrupt was pinned to CPU 2 and ends up everywhere but on CPU 3. -/
theorem last_tuner_decides_pair :
    24 ∈ labHost.nicIrqs id "eno1".toList ∧ ∃ u mask, run follow Machine.start labTuned.1 = some u ∧
    u.files (affinityPath 24) = some mask ∧ readCpuList mask = [0,1,2] := by
  have ran : Runs (constructAll id labPair) labTuned.1 labTuned.2 := runs_exec labSystem () _
  obtain ⟨u,watched,decides⟩ := last_tuner_decides id labHost [⟨"eno1".toList,2,.Full⟩] []
    ⟨"eno2".toList,3,.Full⟩ (by decide) (by simp) ran (by decide +kernel)
  obtain ⟨mask,here,cpus⟩ := (decides 24 (by decide)).2 (by decide +kernel) (by decide +kernel)
  exact ⟨by decide +kernel,u,mask,watched,here,cpus⟩

end Lab

end Abtrda3.IrqPlacement
