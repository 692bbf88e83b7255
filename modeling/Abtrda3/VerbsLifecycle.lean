import Abtrda3.Semantics.Lifetime
import Abtrda3.Semantics.Machine

/-! Setting up and taking down a `Verbs` port. `init` makes up to eight objects, each on
some of those before it, and leaves at the first call that fails; `shutdown`, which is also
the destructor, gives back whatever there is. Any number of ports come and go, and `init`
may be called again in any state. -/
namespace Abtrda3.VerbsLifecycle
open Abtrda3.Semantics Abtrda3.Semantics.Machine Abtrda3.Semantics.Lifetime

inductive VerbsMode
  | RxOnly
  | TxOnly
  | RxTx
  deriving DecidableEq, Repr

def hasRx (mode : VerbsMode) : Bool := mode = .RxOnly || mode = .RxTx

def hasTx (mode : VerbsMode) : Bool := mode = .TxOnly || mode = .RxTx

structure Params where
  mode : VerbsMode
  rqDepth : BitVec 16

inductive Member
  | ctx
  | pd
  | sendCq
  | recvCq
  | buf
  | mr
  | qp
  | flow
  deriving DecidableEq, Repr

/-- The posted receives of a queue pair name the memory region. -/
def needs : Member → List Member
  | .ctx => []
  | .pd => [.ctx]
  | .sendCq => [.ctx]
  | .recvCq => [.ctx]
  | .buf => []
  | .mr => [.pd,.buf]
  | .qp => [.pd,.sendCq,.recvCq,.mr]
  | .flow => [.qp]

def layout : Layout Member where
  needs := needs
  order := [.flow,.qp,.sendCq,.recvCq,.mr,.buf,.pd,.ctx]
  all := by intro member; cases member <;> decide
  ordered := by decide
  apart := by intro member; cases member <;> decide

structure Answers where
  ibdev : String
  readMac : Bool
  listed : Bool
  openDevice : Bool
  allocPd : Bool
  createSendCq : Bool
  createRecvCq : Bool
  memalign : Bool
  regMr : Bool
  createQp : Bool
  modifyInit : Bool
  modifyRtr : Bool
  modifyRts : Bool
  initObj : Bool
  rqWqeCnt : BitVec 32
  cqeCnt : BitVec 32
  rqStride : BitVec 32
  createFlow : Bool
  deriving DecidableEq, Repr

/-- A port that is not on the list of devices keeps the context it had. -/
def openDevice (a : Answers) (name : Nat) : Stage Member := fun w =>
  let w := if a.listed then w.obtained layout (name,.ctx) a.openDevice else w
  (w,(w.members (name,.ctx)).isSome)

/-- Both queues are made before either is looked at. -/
def createCqs (a : Answers) (name : Nat) : Stage Member := fun w =>
  let w := w.obtained layout (name,.sendCq) a.createSendCq
  let w := w.obtained layout (name,.recvCq) a.createRecvCq
  (w,(w.members (name,.sendCq)).isSome && (w.members (name,.recvCq)).isSome)

def geometry (p : Params) (a : Answers) : Bool :=
  !(a.rqWqeCnt < p.rqDepth.setWidth 32 || a.rqWqeCnt &&& (a.rqWqeCnt - 1) ≠ 0 || a.cqeCnt &&& (a.cqeCnt - 1) ≠ 0 ||
    a.rqStride < 16)

def initStages (p : Params) (a : Answers) (name : Nat) : List (Stage Member) :=
  [check (a.ibdev ≠ ""),check a.readMac,openDevice a name,acquire layout name .pd a.allocPd,createCqs a name,
    fill layout name .buf a.memalign,acquire layout name .mr a.regMr,acquire layout name .qp a.createQp,
    check a.modifyInit,check a.modifyRtr] ++
  (if hasTx p.mode then [check a.modifyRts] else []) ++
  if hasRx p.mode then
    -- `prewriteRq` and the doorbell: the card may write to the region before the flow is there.
    [check a.initObj,check (geometry p a),settled name .qp .mr,acquire layout name .flow a.createFlow]
  else []

def filled (mode : VerbsMode) : List (List Member) :=
  [[],[],[.ctx],[.pd],[.sendCq,.recvCq],[.buf],[.mr],[.qp],[],[]] ++ (if hasTx mode then [[]] else []) ++
    if hasRx mode then [[],[],[],[.flow]] else []

private theorem fills_openDevice (a : Answers) (name : Nat) : Fills layout name [.ctx] (openDevice a name) := by
  refine ⟨?_,fun w went member only => ?_⟩
  · unfold openDevice
    cases a.listed with
    | false => exact ⟨fun _ inv => inv,fun _ _ _ => rfl,fun _ _ => rfl⟩
    | true => exact (fills_acquire layout name .ctx a.openDevice).toTouches
  · rw [List.mem_singleton.mp only]
    exact went

private theorem fills_createCqs (a : Answers) (name : Nat) : Fills layout name [.sendCq,.recvCq] (createCqs a name) where
  keeps := fun _ inv => (inv.obtained (name,.sendCq) a.createSendCq).obtained (name,.recvCq) a.createRecvCq
  frame := by
    intro w owner away
    change ((w.obtained layout _ _).obtained layout _ _).members owner = _
    rw [members_obtained,members_obtained]
    · rintro ⟨mine,only⟩
      exact away ⟨mine,List.mem_singleton.mp only ▸ List.mem_cons_self⟩
    · rintro ⟨mine,only⟩
      exact away ⟨mine,List.mem_cons_of_mem _ only⟩
  clean := by
    intro w empty
    change ((w.obtained layout _ _).obtained layout _ _).overwritten = _
    rw [overwritten_obtained,overwritten_obtained]
    · exact empty .sendCq List.mem_cons_self
    · rw [members_obtained]
      · exact empty .recvCq (List.mem_cons_of_mem _ List.mem_cons_self)
      · rintro ⟨_,only⟩
        cases List.mem_singleton.mp only
  filled := by
    intro w went member listed
    obtain ⟨send,recv⟩ := (Bool.and_eq_true _ _).mp went
    rcases List.mem_cons.mp listed with rfl | only
    · exact send
    · rw [List.mem_singleton.mp only]
      exact recv

theorem fills_init (p : Params) (a : Answers) (name : Nat) :
    List.Forall₂ (Fills layout name) (filled p.mode) (initStages p a name) := by
  have checked (ok : Bool) : Fills layout name [] (check ok : Stage Member) := fills_check layout name ok
  have acquired (member : Member) (made : Bool) : Fills layout name [member] (acquire layout name member made) :=
    fills_acquire layout name member made
  apply List.rel_append
  · apply List.rel_append
    · exact .cons (checked _) (.cons (checked _) (.cons (fills_openDevice a name) (.cons (acquired .pd _)
        (.cons (fills_createCqs a name) (.cons (fills_fill ..) (.cons (acquired .mr _) (.cons (acquired .qp _)
          (.cons (checked _) (.cons (checked _) .nil)))))))))
    · exact rel_if (hasTx p.mode = true) (.cons (checked _) .nil)
  · have posted : Fills layout name [] (settled name .qp .mr) := fills_settled (show Member.mr ∈ needs .qp by decide) name
    exact rel_if (hasRx p.mode = true) (.cons (checked _)
      (.cons (checked _) (.cons posted (.cons (acquired .flow _) .nil))))

theorem filled_apart (mode : VerbsMode) : (filled mode).Pairwise List.Disjoint :=
  (List.nodup_flatten.mp (by cases mode <;> decide)).2

def design (p : Params) : Design Member Answers where
  layout := layout
  initStages := initStages p
  filled := filled p.mode
  apart := filled_apart p.mode
  fills := fills_init p

def used (mode : VerbsMode) (member : Member) : Bool := member ≠ .flow || hasRx mode

private theorem used_filled {mode : VerbsMode} {member : Member} (uses : used mode member = true) :
    ∃ group ∈ filled mode, member ∈ group := by
  revert uses
  cases mode <;> cases member <;> decide

/-- Over every history of set-ups and shutdowns nothing is given back that is not held. A
handle is never given back exactly if an `init` wrote over it; if `init` is called on empty
ports only, none is lost and none goes before what rests on it. A port whose `init` went
through has all it works with. -/
theorem verbs_objects_given_back (p : Params) (events : List (Design.Event Member Answers)) (w : World Member)
    (ran : run (design p).step World.start events = some w) :
    w.ledger.faults = 0 ∧
    ((∀ owner, w.members owner = none) →
      ((∀ serial, serial < w.ledger.granted → w.ledger.released.count serial = 1) ↔ w.overwritten = [])) ∧
    (Along (design p).step (design p).OnEmpty World.start events → w.overwritten = [] ∧ w.orphaned = 0) ∧
    ∀ name a, ((design p).init a name w).2 = true → ∀ member, used p.mode member = true →
      (((design p).init a name w).1.members (name,member)).isSome = true := by
  have inv := Design.inv_run ran
  refine ⟨inv.owned.sound.faultless,inv.released_once_iff,fun empty => ?_,fun name a done member uses => ?_⟩
  · have clean := Design.overwritten_run ran empty
    exact ⟨clean,inv.orphaned clean⟩
  · obtain ⟨group,listed,inside⟩ := used_filled uses
    exact stages_filled (fills_init p a name) (filled_apart p.mode) done group listed member inside

def labAnswers : Answers :=
  ⟨"mlx5_0",true,true,true,true,true,true,true,true,true,true,true,true,true,8192,8192,16,true⟩

def labPort : Params := ⟨.RxTx,8192⟩

def labEvents : List (Design.Event Member Answers) :=
  [.init 0 {labAnswers with createQp := false},.shutdown 0,.init 0 labAnswers,.shutdown 0]

/-- Six objects of the first attempt and eight of the second, each back once. -/
theorem verbs_objects_given_back_lab : ∃ w, run (design labPort).step World.start labEvents = some w ∧
    w.ledger.faults = 0 ∧ w.orphaned = 0 ∧ w.ledger.granted = 14 ∧
    ∀ serial, serial < w.ledger.granted → w.ledger.released.count serial = 1 := by
  have shown : (run (design labPort).step World.start labEvents).map (fun w => w.ledger.granted) = some 14 := by
    decide +kernel
  obtain ⟨w,ran,granted⟩ := Option.map_eq_some_iff.mp shown
  obtain ⟨faultless,once,ordered,_⟩ := verbs_objects_given_back labPort labEvents w ran
  obtain ⟨clean,inOrder⟩ := ordered (by decide +kernel)
  refine ⟨w,ran,faultless,inOrder,granted,(once ?_).mpr clean⟩
  rintro ⟨name,member⟩
  cases Option.some.inj ran
  cases name <;> cases member <;> rfl

end Abtrda3.VerbsLifecycle
