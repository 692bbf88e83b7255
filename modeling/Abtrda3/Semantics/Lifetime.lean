import Abtrda3.Semantics.Machine
import Abtrda3.Semantics.Ownership
import Mathlib.Data.List.Forall2

/-! Objects whose members own handles that rest on each other. An object is set up stage by
stage, any stage may fail, and its members are given back in a fixed order. A handle is known
by its number among all that were made. A member that is assigned while it holds a handle
loses it; what rests on a handle has to be gone before the handle is. -/
namespace Abtrda3.Semantics.Lifetime
open Ledger

variable {κ : Type}

/-- What each member of a class rests on, and the order in which the members are given back:
one that rests on another goes before it. -/
structure Layout (κ : Type) where
  needs : κ → List κ
  order : List κ
  all : ∀ member, member ∈ order
  ordered : order.Pairwise (fun earlier later => earlier ∉ needs later)
  apart : ∀ member, member ∉ needs member

structure World (κ : Type) where
  ledger : Ledger Nat
  rests : Nat → List Nat
  members : Nat × κ → Option Nat
  orphaned : Nat
  overwritten : List Nat

namespace World

def start : World κ := ⟨.empty,fun _ => [],fun _ => none,0,[]⟩

def held (w : World κ) : Nat × κ → List Nat := fun owner => (w.members owner).toList

def dependents (w : World κ) (handle : Nat) : List Nat :=
  w.ledger.handles.filter (fun other => other ≠ handle ∧ handle ∈ w.rests other)

variable [DecidableEq κ]

def assign (w : World κ) (owner : Nat × κ) (handle : Option Nat) : World κ :=
  {w with members := Function.update w.members owner handle, overwritten := w.overwritten ++ w.held owner}

def bases (layout : Layout κ) (w : World κ) (owner : Nat × κ) : List Nat :=
  (layout.needs owner.2).filterMap (fun needed => w.members (owner.1,needed))

def create (layout : Layout κ) (w : World κ) (owner : Nat × κ) : World κ :=
  {w.assign owner (some w.ledger.granted) with
    ledger := w.ledger.grant w.ledger.granted,
    rests := Function.update w.rests w.ledger.granted (w.bases layout owner)}

/-- A member takes what a call returns, a handle or null. -/
def obtained (layout : Layout κ) (w : World κ) (owner : Nat × κ) (made : Bool) : World κ :=
  if made then w.create layout owner else w.assign owner none

/-- A handle comes to rest on another member of its object. -/
def settle (w : World κ) (owner : Nat × κ) (base : κ) : World κ :=
  match w.members owner with
  | none => w
  | some handle =>
    {w with rests := Function.update w.rests handle (w.rests handle ++ (w.members (owner.1,base)).toList)}

def giveBack (w : World κ) (owner : Nat × κ) : World κ :=
  match w.members owner with
  | none => w
  | some handle =>
    {w with ledger := w.ledger.release handle, members := Function.update w.members owner none,
            orphaned := w.orphaned + (w.dependents handle).length}

def shutdown (layout : Layout κ) (w : World κ) (name : Nat) : World κ :=
  layout.order.foldl (fun w member => w.giveBack (name,member)) w

def move (w : World κ) (target source : Nat) : World κ :=
  {w with members := fun owner =>
    if owner.1 = target then w.members (source,owner.2) else if owner.1 = source then none else w.members owner}

end World

variable {layout : Layout κ} {w : World κ} {owner : Nat × κ} {name handle : Nat}

/-- Every member owns its handle alone, and what was overwritten is all that is lost. As long
as nothing was, handles rest on members of the same object and none went too early. -/
structure Inv (layout : Layout κ) (w : World κ) : Prop where
  owned : Owned w.ledger w.held
  below : ∀ handle ∈ w.ledger.handles, handle < w.ledger.granted
  lost : ∀ handle, Lost w.ledger w.held handle ↔ handle ∈ w.overwritten
  rests : w.overwritten = [] → ∀ owner handle, w.members owner = some handle → ∀ base ∈ w.rests handle,
    ∃ needed ∈ layout.needs owner.2, w.members (owner.1,needed) = some base
  orphaned : w.overwritten = [] → w.orphaned = 0

theorem mem_held : handle ∈ w.held owner ↔ w.members owner = some handle := by
  unfold World.held
  rw [Option.mem_toList]

theorem Inv.start : Inv layout (World.start : World κ) where
  owned := empty_sound.owned (fun _ => rfl)
  below := fun _ out => nomatch out
  lost := fun _ => ⟨fun lost => (nomatch lost.1),fun listed => nomatch listed⟩
  rests := fun _ _ _ holds => nomatch holds
  orphaned := fun _ => rfl

theorem Inv.fresh (inv : Inv layout w) : w.ledger.granted ∉ w.ledger.handles :=
  fun out => Nat.lt_irrefl _ (inv.below _ out)

theorem Inv.settle (inv : Inv layout w) (owner : Nat × κ) {base : κ} (needed : base ∈ layout.needs owner.2) :
    Inv layout (w.settle owner base) := by
  unfold World.settle
  split
  · exact inv
  · next handle here =>
    refine ⟨inv.owned,inv.below,inv.lost,fun clean other held holds bottom below => ?_,inv.orphaned⟩
    change bottom ∈ Function.update w.rests handle (w.rests handle ++ (w.members (owner.1,base)).toList) held at below
    by_cases same : held = handle
    · rw [same,Function.update_self,List.mem_append,Option.mem_toList] at below
      have owns : other = owner := inv.owned.apart (mem_held.mpr (same ▸ holds)) (mem_held.mpr here)
      rcases below with before | now
      · exact inv.rests clean other held holds bottom (same ▸ before)
      · exact ⟨base,owns ▸ needed,owns ▸ now⟩
    · rw [Function.update_of_ne same] at below
      exact inv.rests clean other held holds bottom below

theorem members_move {target : Nat} (source : Nat) (vacant : ∀ member, w.members (target,member) = none)
    (owner : Nat × κ) :
    (w.move target source).members owner = w.members (Equiv.swap target source owner.1,owner.2) := by
  unfold World.move
  dsimp only
  split
  · next here => rw [here,Equiv.swap_apply_left]
  · next away =>
    split
    · next here => rw [here,Equiv.swap_apply_right,vacant]
    · next elsewhere => rw [Equiv.swap_apply_of_ne_of_ne away elsewhere]

theorem Inv.move (inv : Inv layout w) {target source : Nat} (vacant : ∀ member, w.members (target,member) = none) :
    Inv layout (w.move target source) := by
  have moved := members_move source vacant
  have held : (w.move target source).held =
      fun owner => w.held ((Equiv.swap target source).prodCongr (Equiv.refl κ) owner) := by
    funext owner
    unfold World.held
    rw [moved]
    rfl
  obtain ⟨owned,lost⟩ := inv.owned.reindex ((Equiv.swap target source).prodCongr (Equiv.refl κ))
  refine ⟨?_,inv.below,fun handle => ?_,fun clean owner handle holds base below => ?_,inv.orphaned⟩
  · rw [held]
    exact owned
  · rw [held]
    exact (lost handle).trans (inv.lost handle)
  · rw [moved] at holds
    obtain ⟨needed,member,there⟩ := inv.rests clean _ handle holds base below
    exact ⟨needed,member,by rw [moved]; exact there⟩

/-- With no object left, every handle was given back once exactly if none was overwritten. -/
theorem Inv.released_once_iff (inv : Inv layout w) (gone : ∀ owner, w.members owner = none) :
    (∀ serial, serial < w.ledger.granted → w.ledger.released.count serial = 1) ↔ w.overwritten = [] := by
  have empty (owner : Nat × κ) : w.held owner = [] := by
    unfold World.held
    rw [gone owner]
    rfl
  rw [inv.owned.released_once_iff empty,List.eq_nil_iff_forall_not_mem]
  exact forall_congr' fun handle => not_congr (inv.lost handle)

variable [DecidableEq κ]

theorem held_update (w : World κ) (owner : Nat × κ) (handle : Option Nat) :
    (fun other => (Function.update w.members owner handle other).toList) = Function.update w.held owner handle.toList :=
  Function.comp_update Option.toList w.members owner handle

theorem held_assign (w : World κ) (owner : Nat × κ) (handle : Option Nat) :
    (w.assign owner handle).held = Function.update w.held owner handle.toList := held_update w owner handle

theorem empty_of_assign (new : Option Nat) (clean : (w.assign owner new).overwritten = []) :
    w.overwritten = [] ∧ w.members owner = none := by
  obtain ⟨before,vacant⟩ := List.append_eq_nil_iff.mp clean
  exact ⟨before,Option.toList_eq_nil_iff.mp vacant⟩

theorem Inv.assign_none (inv : Inv layout w) (owner : Nat × κ) : Inv layout (w.assign owner none) where
  owned := by
    rw [held_assign]
    exact (inv.owned.clear owner).1
  below := inv.below
  lost := by
    intro handle
    rw [held_assign]
    change Lost w.ledger _ handle ↔ handle ∈ w.overwritten ++ w.held owner
    rw [List.mem_append,← inv.lost handle]
    exact (inv.owned.clear owner).2 handle
  rests := by
    intro clean
    obtain ⟨before,vacant⟩ := empty_of_assign none clean
    have same : (w.assign owner none).members = w.members := by
      change Function.update w.members owner none = w.members
      rw [← vacant,Function.update_eq_self]
    rw [same]
    exact inv.rests before
  orphaned := fun clean => inv.orphaned (empty_of_assign none clean).1

theorem Inv.owned_create (inv : Inv layout w) (owner : Nat × κ) :
    Owned (w.create layout owner).ledger (w.create layout owner).held ∧
      ∀ other, Lost (w.create layout owner).ledger (w.create layout owner).held other ↔
        Lost w.ledger w.held other ∨ other ∈ w.held owner := by
  have fresh := inv.fresh
  have granted := inv.owned.grant fresh
  obtain ⟨cleared,free⟩ := granted.clear owner
  have mine : Lost (w.ledger.grant w.ledger.granted) (Function.update w.held owner []) w.ledger.granted :=
    (free _).mpr (.inl ((inv.owned.lost_grant fresh).mpr (.inr rfl)))
  obtain ⟨done,gone⟩ := cleared.give (Function.update_self ..) (List.nodup_singleton w.ledger.granted)
    (fun handle only => List.mem_singleton.mp only ▸ mine)
  rw [Function.update_idem] at done gone
  have held : (w.create layout owner).held = Function.update w.held owner [w.ledger.granted] :=
    held_assign w owner (some w.ledger.granted)
  rw [held]
  refine ⟨done,fun other => ?_⟩
  change Lost (w.ledger.grant w.ledger.granted) _ other ↔ _
  rw [gone other,free other,inv.owned.lost_grant fresh,List.mem_singleton]
  constructor
  · rintro ⟨(lost | same) | before,different⟩
    · exact .inl lost
    · exact absurd same different
    · exact .inr before
  · rintro (lost | before)
    · refine ⟨.inl (.inl lost),?_⟩
      rintro rfl
      exact fresh lost.1
    · refine ⟨.inr before,?_⟩
      rintro rfl
      exact fresh (inv.owned.live before)

theorem Inv.create (inv : Inv layout w) (owner : Nat × κ) : Inv layout (w.create layout owner) where
  owned := (inv.owned_create owner).1
  below := by
    intro handle out
    change handle < w.ledger.granted + 1
    rcases mem_handles_grant.mp out with before | same
    · exact Nat.lt_succ_of_lt (inv.below handle before)
    · exact same ▸ Nat.lt_succ_self _
  lost := by
    intro handle
    change _ ↔ handle ∈ w.overwritten ++ w.held owner
    rw [(inv.owned_create owner).2 handle,inv.lost handle,List.mem_append]
  rests := by
    intro clean other handle holds base below
    obtain ⟨before,vacant⟩ := empty_of_assign (some w.ledger.granted) clean
    change Function.update w.members owner (some w.ledger.granted) other = some handle at holds
    change base ∈ Function.update w.rests w.ledger.granted (w.bases layout owner) handle at below
    -- What a held handle rests on is held, so it is not the member that was empty.
    have kept {needed : κ} (there : w.members (other.1,needed) = some base) :
        (w.create layout owner).members (other.1,needed) = some base := by
      change Function.update w.members owner _ _ = _
      rw [Function.update_of_ne,there]
      intro same
      rw [same,vacant] at there
      cases there
    by_cases same : other = owner
    · rw [same,Function.update_self] at holds
      cases holds
      rw [Function.update_self] at below
      obtain ⟨needed,member,there⟩ := List.mem_filterMap.mp below
      rw [← same] at member there
      exact ⟨needed,member,kept there⟩
    · rw [Function.update_of_ne same] at holds
      have old : handle ≠ w.ledger.granted := by
        rintro rfl
        exact inv.fresh (inv.owned.live (mem_held.mpr holds))
      rw [Function.update_of_ne old] at below
      obtain ⟨needed,member,there⟩ := inv.rests before other handle holds base below
      exact ⟨needed,member,kept there⟩
  orphaned := fun clean => inv.orphaned (empty_of_assign (some w.ledger.granted) clean).1

theorem Inv.obtained (inv : Inv layout w) (owner : Nat × κ) (made : Bool) : Inv layout (w.obtained layout owner made) := by
  unfold World.obtained
  split
  · exact inv.create owner
  · exact inv.assign_none owner

section GiveBack

omit [DecidableEq κ] in
/-- Nothing live rests on a handle whose member no other held member of the object needs. -/
theorem Inv.dependents_eq_nil (inv : Inv layout w) (clean : w.overwritten = []) (here : w.members owner = some handle)
    (bare : ∀ member, owner.2 ∈ layout.needs member → w.members (owner.1,member) = none) : w.dependents handle = [] := by
  apply List.filter_eq_nil_iff.mpr
  intro other out rests
  rw [decide_eq_true_eq] at rests
  obtain ⟨different,below⟩ := rests
  -- The one that rests on the handle is not lost, so some member holds it.
  have kept : ¬ Lost w.ledger w.held other := by
    rw [inv.lost other,clean]
    exact List.not_mem_nil
  obtain ⟨holder,holds⟩ : ∃ holder, other ∈ w.held holder := by
    by_contra nobody
    exact kept ⟨out,fun name has => nobody ⟨name,has⟩⟩
  obtain ⟨needed,member,there⟩ := inv.rests clean holder other (mem_held.mp holds) handle below
  have same : (holder.1,needed) = owner := inv.owned.apart (mem_held.mpr there) (mem_held.mpr here)
  subst same
  have empty := bare holder.2 member
  rw [mem_held.mp holds] at empty
  cases empty

theorem giveBack_eq (here : w.members owner = some handle) :
    w.giveBack owner = {w with ledger := w.ledger.release handle, members := Function.update w.members owner none,
                               orphaned := w.orphaned + (w.dependents handle).length} := by
  unfold World.giveBack
  rw [here]

theorem giveBack_none (vacant : w.members owner = none) : w.giveBack owner = w := by
  unfold World.giveBack
  rw [vacant]

theorem members_giveBack (w : World κ) (owner : Nat × κ) :
    (w.giveBack owner).members = Function.update w.members owner none := by
  cases here : w.members owner with
  | none => rw [giveBack_none here,← here,Function.update_eq_self]
  | some handle => rw [giveBack_eq here]

theorem overwritten_giveBack (w : World κ) (owner : Nat × κ) : (w.giveBack owner).overwritten = w.overwritten := by
  unfold World.giveBack
  split <;> rfl

theorem Inv.giveBack (inv : Inv layout w) (owner : Nat × κ)
    (bare : ∀ member, owner.2 ∈ layout.needs member → w.members (owner.1,member) = none) :
    Inv layout (w.giveBack owner) := by
  cases here : w.members owner with
  | none =>
    rw [giveBack_none here]
    exact inv
  | some handle =>
    have single : w.held owner = [handle] := by
      unfold World.held
      rw [here]
      rfl
    have held : (w.giveBack owner).held = Function.update w.held owner [] := by
      unfold World.held
      rw [members_giveBack]
      exact held_update w owner none
    obtain ⟨done,gone⟩ := inv.owned.drop owner
    rw [single] at done gone
    obtain ⟨_,left⟩ := inv.owned.sound.release (inv.owned.live (mem_held.mpr here))
    have ledger : (w.giveBack owner).ledger = [handle].foldl release w.ledger := by rw [giveBack_eq here]; rfl
    refine ⟨?_,?_,fun other => ?_,fun clean other held holds base below => ?_,fun clean => ?_⟩
    · rw [held,ledger]
      exact done
    · intro other out
      rw [giveBack_eq here] at out
      rw [giveBack_eq here]
      obtain ⟨_,_,_,granted,_⟩ := release_live (inv.owned.live (mem_held.mpr here))
      change other < (w.ledger.release handle).granted
      rw [granted]
      exact inv.below other ((left other).mp out).1
    · rw [held,ledger,gone other,overwritten_giveBack]
      exact inv.lost other
    · rw [overwritten_giveBack] at clean
      rw [members_giveBack] at holds ⊢
      rw [giveBack_eq here] at below
      have different : other ≠ owner := by
        rintro rfl
        rw [Function.update_self] at holds
        cases holds
      rw [Function.update_of_ne different] at holds
      obtain ⟨needed,member,there⟩ := inv.rests clean other held holds base below
      refine ⟨needed,member,?_⟩
      rw [Function.update_of_ne,there]
      rintro rfl
      have empty := bare other.2 member
      rw [holds] at empty
      cases empty
    · rw [overwritten_giveBack] at clean
      rw [giveBack_eq here]
      change w.orphaned + _ = 0
      rw [inv.orphaned clean,inv.dependents_eq_nil clean here bare]
      rfl

end GiveBack

section Shutdown

private theorem fold_giveBack {members : List κ} (inv : Inv layout w)
    (rest : ∀ member, member ∈ members ∨ w.members (name,member) = none)
    (ordered : members.Pairwise (fun earlier later => earlier ∉ layout.needs later)) :
    Inv layout (members.foldl (fun w member => w.giveBack (name,member)) w) := by
  induction members generalizing w with
  | nil => exact inv
  | cons member others ih =>
    obtain ⟨first,ordered⟩ := List.pairwise_cons.mp ordered
    have bare (other : κ) (needs : member ∈ layout.needs other) : w.members (name,other) = none := by
      rcases rest other with listed | vacant
      · rcases List.mem_cons.mp listed with same | later
        · exact absurd (same ▸ needs) (layout.apart member)
        · exact absurd needs (first other later)
      · exact vacant
    apply ih (inv.giveBack (name,member) bare) _ ordered
    intro other
    rw [members_giveBack]
    rcases rest other with listed | vacant
    · rcases List.mem_cons.mp listed with same | later
      · right
        rw [same,Function.update_self]
      · exact .inl later
    · right
      rw [Function.update_apply,vacant,ite_self]

theorem Inv.shutdown (inv : Inv layout w) (name : Nat) : Inv layout (w.shutdown layout name) :=
  fold_giveBack inv (fun member => .inl (layout.all member)) layout.ordered

private theorem members_fold (members : List κ) (w : World κ) (name : Nat) (owner : Nat × κ) :
    (members.foldl (fun w member => w.giveBack (name,member)) w).members owner =
      if owner.1 = name ∧ owner.2 ∈ members then none else w.members owner := by
  induction members generalizing w with
  | nil => simp
  | cons member others ih =>
    rw [List.foldl_cons,ih,members_giveBack,Function.update_apply]
    by_cases mine : owner = (name,member)
    · subst mine
      simp
    · have other : ¬(owner.1 = name ∧ owner.2 = member) := fun same => mine (Prod.ext same.1 same.2)
      rw [if_neg mine]
      congr 1
      rw [List.mem_cons]
      grind

theorem members_shutdown (w : World κ) (name : Nat) (owner : Nat × κ) :
    (w.shutdown layout name).members owner = if owner.1 = name then none else w.members owner := by
  unfold World.shutdown
  rw [members_fold]
  simp only [layout.all,and_true]

theorem overwritten_shutdown (w : World κ) (name : Nat) : (w.shutdown layout name).overwritten = w.overwritten := by
  unfold World.shutdown
  induction layout.order generalizing w with
  | nil => rfl
  | cons member others ih => rw [List.foldl_cons,ih,overwritten_giveBack]

end Shutdown

section Stages

/-- One call of a set-up with the check behind it; `false` leaves. -/
abbrev Stage (κ : Type) := World κ → World κ × Bool

def stages : List (Stage κ) → Stage κ
  | [], w => (w,true)
  | stage::rest, w => if (stage w).2 then stages rest (stage w).1 else ((stage w).1,false)

def check (ok : Bool) : Stage κ := fun w => (w,ok)

/-- The member takes what the call returns, and null leaves. -/
def acquire (layout : Layout κ) (name : Nat) (member : κ) (made : Bool) : Stage κ := fun w =>
  (w.obtained layout (name,member) made,((w.obtained layout (name,member) made).members (name,member)).isSome)

/-- The call fills the member in only if it succeeds. -/
def fill (layout : Layout κ) (name : Nat) (member : κ) (made : Bool) : Stage κ := fun w =>
  if made then (w.create layout (name,member),true) else (w,false)

/-- From here on one member rests on another that came later. -/
def settled (name : Nat) (member base : κ) : Stage κ := fun w => (w.settle (name,member) base,true)

/-- A stage assigns no member of the object but these, and loses nothing if they are empty. -/
structure Touches (layout : Layout κ) (name : Nat) (members : List κ) (stage : Stage κ) : Prop where
  keeps : ∀ w, Inv layout w → Inv layout (stage w).1
  frame : ∀ w owner, ¬(owner.1 = name ∧ owner.2 ∈ members) → (stage w).1.members owner = w.members owner
  clean : ∀ w, (∀ member ∈ members, w.members (name,member) = none) → (stage w).1.overwritten = w.overwritten

/-- Moreover a stage that goes on leaves its members filled. -/
structure Fills (layout : Layout κ) (name : Nat) (members : List κ) (stage : Stage κ) : Prop extends
    Touches layout name members stage where
  filled : ∀ w, (stage w).2 = true → ∀ member ∈ members, ((stage w).1.members (name,member)).isSome = true

section Rules

variable {groups : List (List κ)} {list : List (Stage κ)}

omit [DecidableEq κ] in
/-- Wherever a set-up stops, the invariant holds. -/
theorem stages_keep (touch : List.Forall₂ (Touches layout name) groups list) (inv : Inv layout w) :
    Inv layout (stages list w).1 := by
  induction touch generalizing w with
  | nil => exact inv
  | cons touches _ ih =>
    unfold stages
    split
    · exact ih (touches.keeps w inv)
    · exact touches.keeps w inv

omit [DecidableEq κ] in
theorem stages_frame (touch : List.Forall₂ (Touches layout name) groups list)
    (away : ∀ group ∈ groups, ¬(owner.1 = name ∧ owner.2 ∈ group)) :
    (stages list w).1.members owner = w.members owner := by
  induction touch generalizing w with
  | nil => rfl
  | cons touches _ ih =>
    obtain ⟨here,later⟩ := List.forall_mem_cons.mp away
    unfold stages
    split
    · rw [ih later,touches.frame w owner here]
    · exact touches.frame w owner here

omit [DecidableEq κ] in
/-- Stages that touch different members of an empty object lose nothing. -/
theorem stages_clean (touch : List.Forall₂ (Touches layout name) groups list)
    (apart : groups.Pairwise List.Disjoint) (empty : ∀ member, w.members (name,member) = none) :
    (stages list w).1.overwritten = w.overwritten := by
  -- Only the members of the stages to come have to be empty.
  suffices clean : ∀ w : World κ, (∀ group ∈ groups, ∀ member ∈ group, w.members (name,member) = none) →
      (stages list w).1.overwritten = w.overwritten from clean w (fun _ _ member _ => empty member)
  clear empty
  induction touch with
  | nil => exact fun _ _ => rfl
  | @cons group stage groups list touches _ ih =>
    intro w empty
    obtain ⟨here,later⟩ := List.forall_mem_cons.mp empty
    obtain ⟨different,apart⟩ := List.pairwise_cons.mp apart
    have first := touches.clean w here
    unfold stages
    split
    · rw [ih apart,first]
      intro next listed member inside
      rw [touches.frame]
      · exact later next listed member inside
      · rintro ⟨_,also⟩
        exact different next listed also inside
    · exact first

omit [DecidableEq κ] in
/-- After a set-up that went through, all its members are filled. -/
theorem stages_filled (fills : List.Forall₂ (Fills layout name) groups list)
    (apart : groups.Pairwise List.Disjoint) (done : (stages list w).2 = true) :
    ∀ group ∈ groups, ∀ member ∈ group, ((stages list w).1.members (name,member)).isSome = true := by
  induction fills generalizing w with
  | nil => exact fun _ listed => nomatch listed
  | @cons group stage groups list fills later ih =>
    obtain ⟨different,apart⟩ := List.pairwise_cons.mp apart
    unfold stages at done ⊢
    split at done
    · next went =>
      rw [if_pos went]
      intro next listed member inside
      rcases List.mem_cons.mp listed with same | after
      · subst same
        rw [stages_frame (later.imp fun _ _ fills => fills.toTouches)]
        · exact fills.filled w went member inside
        · rintro other among ⟨_,also⟩
          exact different other among inside also
      · exact ih apart done next after member inside
    · cases done

end Rules

theorem members_obtained (layout : Layout κ) (w : World κ) {name : Nat} {member : κ} (made : Bool)
    (away : ¬(owner.1 = name ∧ owner.2 ∈ [member])) :
    (w.obtained layout (name,member) made).members owner = w.members owner := by
  have other : owner ≠ (name,member) := by
    rintro rfl
    exact away ⟨rfl,List.mem_singleton.mpr rfl⟩
  unfold World.obtained
  split <;> exact Function.update_of_ne other ..

theorem overwritten_assign (new : Option Nat) (vacant : w.members owner = none) :
    (w.assign owner new).overwritten = w.overwritten := by
  change w.overwritten ++ w.held owner = _
  unfold World.held
  rw [vacant]
  exact List.append_nil _

theorem overwritten_create (vacant : w.members owner = none) :
    (w.create layout owner).overwritten = w.overwritten := overwritten_assign (some w.ledger.granted) vacant

theorem overwritten_obtained {made : Bool} (vacant : w.members owner = none) :
    (w.obtained layout owner made).overwritten = w.overwritten := by
  unfold World.obtained
  split
  · exact overwritten_create vacant
  · exact overwritten_assign none vacant

omit [DecidableEq κ] in
theorem members_settle (w : World κ) (owner : Nat × κ) (base : κ) : (w.settle owner base).members = w.members := by
  unfold World.settle
  split <;> rfl

omit [DecidableEq κ] in
theorem overwritten_settle (w : World κ) (owner : Nat × κ) (base : κ) :
    (w.settle owner base).overwritten = w.overwritten := by
  unfold World.settle
  split <;> rfl

omit [DecidableEq κ] in
theorem fills_check (layout : Layout κ) (name : Nat) (ok : Bool) : Fills layout name [] (check ok : Stage κ) :=
  ⟨⟨fun _ inv => inv,fun _ _ _ => rfl,fun _ _ => rfl⟩,fun _ _ _ none => nomatch none⟩

theorem fills_acquire (layout : Layout κ) (name : Nat) (member : κ) (made : Bool) :
    Fills layout name [member] (acquire layout name member made) where
  keeps := fun _ inv => inv.obtained (name,member) made
  frame := fun w _ away => members_obtained layout w made away
  clean := fun _ empty => overwritten_obtained (empty member List.mem_cons_self)
  filled := by
    intro w went other only
    rw [List.mem_singleton.mp only]
    exact went

theorem fills_fill (layout : Layout κ) (name : Nat) (member : κ) (made : Bool) :
    Fills layout name [member] (fill layout name member made) := by
  cases made with
  | false => exact ⟨⟨fun _ inv => inv,fun _ _ _ => rfl,fun _ _ => rfl⟩,fun _ went => nomatch went⟩
  | true =>
    refine ⟨⟨fun _ inv => inv.create (name,member),fun w _ away => members_obtained layout w true away,
      fun _ empty => overwritten_create (empty member List.mem_cons_self)⟩,fun w _ other only => ?_⟩
    rw [List.mem_singleton.mp only]
    change (Function.update w.members (name,member) (some w.ledger.granted) (name,member)).isSome = true
    rw [Function.update_self]
    rfl

omit [DecidableEq κ] in
theorem fills_settled {member base : κ} (needed : base ∈ layout.needs member) (name : Nat) :
    Fills layout name [] (settled name member base) where
  keeps := fun _ inv => inv.settle (name,member) needed
  frame := fun w _ _ => congrFun (members_settle w (name,member) base) _
  clean := fun w _ => overwritten_settle w (name,member) base
  filled := fun _ _ _ none => nomatch none

omit [DecidableEq κ] in
theorem rel_if {relation : List κ → Stage κ → Prop} {groups : List (List κ)} {list : List (Stage κ)} (chosen : Prop)
    [Decidable chosen] (related : List.Forall₂ relation groups list) :
    List.Forall₂ relation (if chosen then groups else []) (if chosen then list else []) := by
  split
  · exact related
  · exact .nil

end Stages

/-- A class: the layout of its objects, and the stages of its set-up for what the calls
answer, each with the members it fills. -/
structure Design (κ α : Type) [DecidableEq κ] where
  layout : Layout κ
  initStages : α → Nat → List (Stage κ)
  filled : List (List κ)
  apart : filled.Pairwise List.Disjoint
  fills : ∀ answers name, List.Forall₂ (Fills layout name) filled (initStages answers name)

namespace Design

open Machine

variable {α : Type} (design : Design κ α)

def init (answers : α) (name : Nat) : Stage κ := stages (design.initStages answers name)

inductive Event (κ α : Type)
  | init (name : Nat) (answers : α)
  | settle (name : Nat) (member base : κ)
  | shutdown (name : Nat)
  deriving DecidableEq, Repr

def step (w : World κ) : Event κ α → Option (World κ)
  | .init name answers => some (design.init answers name w).1
  | .settle name member base => if base ∈ design.layout.needs member then some (w.settle (name,member) base) else none
  | .shutdown name => some (w.shutdown design.layout name)

/-- A set-up finds an object that holds nothing: a new one, or one that was shut down. -/
def OnEmpty (w : World κ) : Event κ α → Prop
  | .init name _ => ∀ member ∈ design.layout.order, w.members (name,member) = none
  | _ => True

instance (w : World κ) : (event : Event κ α) → Decidable (design.OnEmpty w event)
  | .init name _ => inferInstanceAs (Decidable (∀ member ∈ design.layout.order, w.members (name,member) = none))
  | .settle _ _ _ => isTrue trivial
  | .shutdown _ => isTrue trivial

variable {design} {next : World κ} {event : Event κ α}

theorem touches (design : Design κ α) (answers : α) (name : Nat) :
    List.Forall₂ (Touches design.layout name) design.filled (design.initStages answers name) :=
  (design.fills answers name).imp fun _ _ fills => fills.toTouches

theorem inv_step (inv : Inv design.layout w) (moved : design.step w event = some next) : Inv design.layout next := by
  cases event with
  | init name answers =>
    cases Option.some.inj moved
    exact stages_keep (design.touches answers name) inv
  | settle name member base =>
    obtain ⟨needed,same⟩ := Option.ite_none_right_eq_some.mp moved
    cases same
    exact inv.settle (name,member) needed
  | shutdown name =>
    cases Option.some.inj moved
    exact inv.shutdown name

theorem overwritten_step (clean : w.overwritten = []) (empty : design.OnEmpty w event)
    (moved : design.step w event = some next) : next.overwritten = [] := by
  cases event with
  | init name answers =>
    cases Option.some.inj moved
    have vacant (member : κ) : w.members (name,member) = none := empty member (design.layout.all member)
    exact (stages_clean (design.touches answers name) design.apart vacant).trans clean
  | settle name member base =>
    obtain ⟨_,same⟩ := Option.ite_none_right_eq_some.mp moved
    cases same
    exact (overwritten_settle w _ _).trans clean
  | shutdown name =>
    cases Option.some.inj moved
    exact (overwritten_shutdown w name).trans clean

theorem inv_run {events : List (Event κ α)} (ran : run design.step World.start events = some w) : Inv design.layout w :=
  reachable_invariant (Inv design.layout) (fun _ _ _ inv moved => inv_step inv moved) Inv.start ran

theorem overwritten_run {events : List (Event κ α)} (ran : run design.step World.start events = some w)
    (empty : Along design.step design.OnEmpty World.start events) : w.overwritten = [] :=
  run_invariant (fun w => w.overwritten = []) (fun _ _ _ clean empty moved => overwritten_step clean empty moved) rfl
    empty ran

end Design

end Abtrda3.Semantics.Lifetime
