import Abtrda3.Afxdp
import Abtrda3.Semantics.Lifetime

/-! Setting up, moving and taking down AF_XDP sockets. All that `init` makes is carried over
by a move, and the source is left with nothing to give back. Only a missing interface makes
`init` return false; any other failure ends the process. An index that is not zero stands for
the program on the interface, which `shutdown` takes off. -/
namespace Abtrda3.AfxdpLifecycle
open Abtrda3.Afxdp Abtrda3.Semantics Abtrda3.Semantics.Machine Abtrda3.Semantics.Lifetime

inductive Member
  | ifindex
  | xdpProg
  | buffer
  | umem
  | xsk
  deriving DecidableEq, Repr

def needs : Member → List Member
  | .ifindex => []
  | .xdpProg => [.ifindex]
  | .buffer => []
  | .umem => [.buffer]
  | .xsk => [.umem,.ifindex]

def layout : Layout Member where
  needs := needs
  order := [.xsk,.umem,.buffer,.xdpProg,.ifindex]
  all := by intro member; cases member <;> decide
  ordered := by decide
  apart := by intro member; cases member <;> decide

structure Answers where
  ifindex : BitVec 32
  bpfProgPath : String
  openFile : Bool
  attach : Bool
  mmap : Bool
  umemCreate : Bool
  fillReserve : BitVec 32
  zeroCopy : Bool
  nativeCopy : Bool
  generic : Bool
  deriving DecidableEq, Repr

/-- A program that cannot be attached is closed, and `init` goes on without it. -/
def loadXdpProgram (a : Answers) (name : Nat) : Stage Member := fun w =>
  let w := w.obtained layout (name,.xdpProg) a.openFile
  (if a.openFile && !a.attach then w.giveBack (name,.xdpProg) else w,true)

/-- Three ways to bind, the first that works. -/
def xskConfigureSocket (a : Answers) (name : Nat) : Stage Member := fun w =>
  let w := if a.zeroCopy || a.nativeCopy || a.generic then w.create layout (name,.xsk) else w
  (w,(w.members (name,.xsk)).isSome)

def fatalStages (p : Params) (a : Answers) (name : Nat) : List (Stage Member) :=
  (if p.mode ≠ .TxOnly ∧ a.bpfProgPath ≠ "" then [loadXdpProgram a name] else []) ++
  [acquire layout name .buffer a.mmap,fill layout name .umem a.umemCreate] ++
  (if p.mode ≠ .TxOnly then [check (a.fillReserve = BitVec.ofNat 32 p.rxPoolFrames)] else []) ++
  [xskConfigureSocket a name]

inductive Outcome
  | returned (ready : Bool)
  | aborted
  deriving DecidableEq, Repr

def init (p : Params) (a : Answers) (name : Nat) (w : World Member) : World Member × Outcome :=
  let (w,known) := acquire layout name .ifindex (a.ifindex ≠ 0) w
  if known = false then (w,.returned false)
  else
    let (w,ready) := stages (fatalStages p a name) w
    (w,if ready then .returned true else .aborted)

structure State where
  world : World Member
  halted : Bool

def start : State := ⟨World.start,false⟩

inductive Event
  | init (name : Nat) (answers : Answers)
  | shutdown (name : Nat)
  | moveConstruct (name source : Nat)
  | moveAssign (target source : Nat)
  deriving DecidableEq, Repr

def Unborn (w : World Member) (name : Nat) : Prop := ∀ member ∈ layout.order, w.members (name,member) = none

instance (w : World Member) (name : Nat) : Decidable (Unborn w name) :=
  inferInstanceAs (Decidable (∀ member ∈ layout.order, w.members (name,member) = none))

/-- The destructor is `shutdown`, too. -/
def step (p : Params) (s : State) (event : Event) : Option State :=
  if s.halted then none
  else match event with
  | .init name a =>
    match init p a name s.world with
    | (w,.returned _) => some ⟨w,false⟩
    | (w,.aborted) => some ⟨w,true⟩
  | .shutdown name => some ⟨s.world.shutdown layout name,false⟩
  | .moveConstruct name source => if Unborn s.world name then some ⟨s.world.move name source,false⟩ else none
  | .moveAssign target source =>
    -- `this != &other`
    if target = source then some s else some ⟨(s.world.shutdown layout target).move target source,false⟩

/-- `init` finds a socket that holds nothing: a new one, one that was shut down or moved from. -/
def OnEmpty (s : State) : Event → Prop
  | .init name _ => Unborn s.world name
  | _ => True

instance (s : State) : (event : Event) → Decidable (OnEmpty s event)
  | .init name _ => inferInstanceAs (Decidable (Unborn s.world name))
  | .shutdown _ => isTrue trivial
  | .moveConstruct _ _ => isTrue trivial
  | .moveAssign _ _ => isTrue trivial

def touched (p : Params) (a : Answers) : List (List Member) :=
  (if p.mode ≠ .TxOnly ∧ a.bpfProgPath ≠ "" then [[.xdpProg]] else []) ++ [[.buffer],[.umem]] ++
  (if p.mode ≠ .TxOnly then [[]] else []) ++ [[.xsk]]

private theorem not_needed (member : Member) : Member.xdpProg ∉ layout.needs member := by cases member <;> decide

private theorem touches_loadXdpProgram (a : Answers) (name : Nat) :
    Touches layout name [.xdpProg] (loadXdpProgram a name) where
  keeps := by
    intro w inv
    have opened := inv.obtained (name,.xdpProg) a.openFile
    change Inv layout (if _ then _ else _)
    split
    · exact opened.giveBack (name,.xdpProg) (fun member needed => absurd needed (not_needed member))
    · exact opened
  frame := by
    intro w owner away
    change (if _ then _ else _ : World Member).members owner = _
    split
    · rw [members_giveBack,Function.update_of_ne,members_obtained layout w a.openFile away]
      rintro rfl
      exact away ⟨rfl,List.mem_singleton.mpr rfl⟩
    · exact members_obtained layout w a.openFile away
  clean := by
    intro w empty
    have kept : (w.obtained layout (name,.xdpProg) a.openFile).overwritten = w.overwritten :=
      overwritten_obtained (empty .xdpProg List.mem_cons_self)
    change (if _ then _ else _ : World Member).overwritten = _
    split
    · rw [overwritten_giveBack,kept]
    · exact kept

private theorem touches_xskConfigureSocket (a : Answers) (name : Nat) :
    Touches layout name [.xsk] (xskConfigureSocket a name) := by
  unfold xskConfigureSocket
  cases a.zeroCopy || a.nativeCopy || a.generic with
  | false => exact ⟨fun _ inv => inv,fun _ _ _ => rfl,fun _ _ => rfl⟩
  | true =>
    exact ⟨fun _ inv => inv.create (name,.xsk),fun w _ away => members_obtained layout w true away,
      fun _ empty => overwritten_create (empty .xsk List.mem_cons_self)⟩

private theorem touches_fatal (p : Params) (a : Answers) (name : Nat) :
    List.Forall₂ (Touches layout name) (touched p a) (fatalStages p a name) := by
  apply List.rel_append
  · apply List.rel_append
    · apply List.rel_append
      · exact rel_if _ (.cons (touches_loadXdpProgram a name) .nil)
      · exact .cons (fills_acquire layout name .buffer a.mmap).toTouches
          (.cons (fills_fill layout name .umem a.umemCreate).toTouches .nil)
    · exact rel_if _ (.cons (fills_check layout name _).toTouches .nil)
  · exact .cons (touches_xskConfigureSocket a name) .nil

def initStages (p : Params) (a : Answers) (name : Nat) : List (Stage Member) :=
  acquire layout name .ifindex (a.ifindex ≠ 0)::fatalStages p a name

private theorem init_world (p : Params) (a : Answers) (name : Nat) (w : World Member) :
    (init p a name w).1 = (stages (initStages p a name) w).1 := by
  unfold init initStages
  rw [stages]
  dsimp only
  cases (acquire layout name .ifindex (decide (a.ifindex ≠ 0)) w).2 <;> rfl

private theorem touches_init (p : Params) (a : Answers) (name : Nat) :
    List.Forall₂ (Touches layout name) ([.ifindex]::touched p a) (initStages p a name) :=
  .cons (fills_acquire layout name .ifindex _).toTouches (touches_fatal p a name)

private theorem touched_apart (p : Params) (a : Answers) : ([.ifindex]::touched p a).Pairwise List.Disjoint := by
  have distinct : ([.ifindex]::touched p a).flatten.Nodup := by
    unfold touched
    split <;> split <;> decide
  exact (List.nodup_flatten.mp distinct).2

variable {p : Params} {s t : State} {event : Event}

private theorem step_init {name : Nat} {a : Answers} (moved : step p s (.init name a) = some t) :
    t.world = (stages (initStages p a name) s.world).1 := by
  dsimp only [step] at moved
  obtain ⟨_,inner⟩ := Option.ite_none_left_eq_some.mp moved
  rw [← init_world]
  split at inner <;> next same => cases inner; rw [same]

theorem step_cases (moved : step p s event = some t) :
    (∃ name a, event = .init name a ∧ t.world = (stages (initStages p a name) s.world).1) ∨
    (∃ name, t.world = s.world.shutdown layout name) ∨ t.world = s.world ∨
    ∃ before target source, (before = s.world ∨ before = s.world.shutdown layout target) ∧
      (∀ member, before.members (target,member) = none) ∧ t.world = before.move target source := by
  cases event with
  | init name a => exact .inl ⟨name,a,rfl,step_init moved⟩
  | shutdown name =>
    dsimp only [step] at moved
    obtain ⟨_,inner⟩ := Option.ite_none_left_eq_some.mp moved
    cases inner
    exact .inr (.inl ⟨name,rfl⟩)
  | moveConstruct name source =>
    dsimp only [step] at moved
    obtain ⟨_,inner⟩ := Option.ite_none_left_eq_some.mp moved
    obtain ⟨unborn,same⟩ := Option.ite_none_right_eq_some.mp inner
    cases same
    exact .inr (.inr (.inr ⟨s.world,name,source,.inl rfl,fun member => unborn member (layout.all member),rfl⟩))
  | moveAssign target source =>
    dsimp only [step] at moved
    obtain ⟨_,inner⟩ := Option.ite_none_left_eq_some.mp moved
    split at inner
    · cases inner
      exact .inr (.inr (.inl rfl))
    · cases inner
      refine .inr (.inr (.inr ⟨_,target,source,.inr rfl,fun member => ?_,rfl⟩))
      rw [members_shutdown,if_pos rfl]

theorem inv_step (inv : Inv layout s.world) (moved : step p s event = some t) : Inv layout t.world := by
  obtain ⟨name,a,_,after⟩ | ⟨name,after⟩ | after | ⟨before,target,source,from_,vacant,after⟩ := step_cases moved
  · rw [after]
    exact stages_keep (touches_init p a name) inv
  · rw [after]
    exact inv.shutdown name
  · rw [after]
    exact inv
  · have ready : Inv layout before := by
      rcases from_ with same | shut
      · exact same ▸ inv
      · exact shut ▸ inv.shutdown target
    rw [after]
    exact ready.move vacant

theorem overwritten_step (clean : s.world.overwritten = []) (empty : OnEmpty s event) (moved : step p s event = some t) :
    t.world.overwritten = [] := by
  obtain ⟨name,a,same,after⟩ | ⟨name,after⟩ | after | ⟨before,target,source,from_,_,after⟩ := step_cases moved
  · subst same
    have vacant (member : Member) : s.world.members (name,member) = none := empty member (layout.all member)
    rw [after,stages_clean (touches_init p a name) (touched_apart p a) vacant,clean]
  · rw [after,overwritten_shutdown,clean]
  · rw [after,clean]
  · rw [after]
    change before.overwritten = []
    rcases from_ with same | shut
    · rw [same,clean]
    · rw [shut,overwritten_shutdown,clean]

def labAnswers : Answers := ⟨4,"xdp_filter.o",true,true,true,true,16,false,true,true⟩

def labEvents : List Event :=
  [.init 0 labAnswers,.moveConstruct 1 0,.moveAssign 1 1,.init 2 {labAnswers with attach := false},
   .init 3 {labAnswers with ifindex := 0},.moveAssign 2 1,.shutdown 0,.shutdown 1,.shutdown 2,.shutdown 3]

end Abtrda3.AfxdpLifecycle
