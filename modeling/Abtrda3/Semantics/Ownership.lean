import Mathlib.Data.List.Nodup
import Mathlib.Logic.Equiv.Basic
import Mathlib.Logic.Function.Basic

/-! Handles that an environment grants and takes back, and the owners that hold them. A
handle may be granted again once it is back, so each grant has a serial number of its own,
and a release of a handle that is not out is a fault. Owners hold distinct live handles; a
live handle that nobody holds is lost, and no operation on owners finds it again. -/
namespace Abtrda3.Semantics

structure Ledger (α : Type) where
  granted : Nat
  live : List (α × Nat)
  released : List Nat
  faults : Nat
  deriving DecidableEq, Repr

namespace Ledger

variable {α : Type}

def empty : Ledger α := ⟨0,[],[],0⟩

def handles (ledger : Ledger α) : List α := ledger.live.map Prod.fst

def serials (ledger : Ledger α) : List Nat := ledger.live.map Prod.snd

def grant (ledger : Ledger α) (handle : α) : Ledger α :=
  {ledger with granted := ledger.granted + 1, live := ledger.live ++ [(handle,ledger.granted)]}

def release [DecidableEq α] (ledger : Ledger α) (handle : α) : Ledger α :=
  match ledger.live.find? (fun entry => entry.1 = handle) with
  | some entry => {ledger with live := ledger.live.erase entry, released := ledger.released ++ [entry.2]}
  | none => {ledger with faults := ledger.faults + 1}

def releaseAll (ledger : Ledger α) : Ledger α :=
  {ledger with live := [], released := ledger.released ++ ledger.serials}

/-- Every grant stands once, among the live ones or among the released, and no release
went wrong. -/
structure Sound (ledger : Ledger α) : Prop where
  distinct : ledger.handles.Nodup
  once : (ledger.released ++ ledger.serials).Perm (List.range ledger.granted)
  faultless : ledger.faults = 0

variable {ledger : Ledger α} {handle other : α}

theorem empty_sound : Sound (empty : Ledger α) := ⟨List.nodup_nil,List.Perm.refl _,rfl⟩

theorem mem_handles_grant : other ∈ (ledger.grant handle).handles ↔ other ∈ ledger.handles ∨ other = handle := by
  simp only [handles,grant,List.map_append,List.mem_append,List.map_cons,List.map_nil,List.mem_singleton]

theorem Sound.grant (sound : ledger.Sound) (fresh : handle ∉ ledger.handles) : (ledger.grant handle).Sound where
  distinct := by
    have grown : (ledger.grant handle).handles = ledger.handles ++ [handle] := List.map_append
    rw [grown,List.nodup_append]
    refine ⟨sound.distinct,List.nodup_singleton handle,?_⟩
    intro first inside last only same
    rw [same,List.mem_singleton.mp only] at inside
    exact fresh inside
  once := by
    have grown : (ledger.grant handle).serials = ledger.serials ++ [ledger.granted] := List.map_append
    change (ledger.released ++ (ledger.grant handle).serials).Perm (List.range (ledger.granted + 1))
    rw [grown,← List.append_assoc,List.range_succ]
    exact sound.once.append_right _
  faultless := sound.faultless

theorem Sound.releaseAll (sound : ledger.Sound) : ledger.releaseAll.Sound where
  distinct := List.nodup_nil
  once := by
    change (ledger.released ++ ledger.serials ++ []).Perm _
    rw [List.append_nil]
    exact sound.once
  faultless := sound.faultless

theorem release_live [DecidableEq α] (out : handle ∈ ledger.handles) :
    ∃ serial, ledger.live.Perm ((handle,serial)::(ledger.release handle).live) ∧
      (ledger.release handle).released = ledger.released ++ [serial] ∧
      (ledger.release handle).granted = ledger.granted ∧ (ledger.release handle).faults = ledger.faults := by
  unfold release
  split
  next entry found =>
    have member := List.mem_of_find?_eq_some found
    have same := List.find?_some found
    rw [decide_eq_true_eq] at same
    refine ⟨entry.2,?_,rfl,rfl,rfl⟩
    rw [← same]
    exact List.perm_cons_erase member
  next absent =>
    obtain ⟨entry,member,same⟩ := List.mem_map.mp out
    exact absurd (decide_eq_true same) (List.find?_eq_none.mp absent entry member)

theorem Sound.release [DecidableEq α] (sound : ledger.Sound) (out : handle ∈ ledger.handles) :
    (ledger.release handle).Sound ∧
      ∀ other, other ∈ (ledger.release handle).handles ↔ other ∈ ledger.handles ∧ other ≠ handle := by
  obtain ⟨serial,entries,released,granted,faults⟩ := release_live out
  have handles : ledger.handles.Perm (handle::(ledger.release handle).handles) := entries.map Prod.fst
  have serials : ledger.serials.Perm (serial::(ledger.release handle).serials) := entries.map Prod.snd
  have distinct := handles.nodup_iff.mp sound.distinct
  refine ⟨⟨(List.nodup_cons.mp distinct).2,?_,faults.trans sound.faultless⟩,?_⟩
  · rw [released,granted,List.append_assoc]
    exact (serials.append_left _).symm.trans sound.once
  · intro other
    rw [handles.mem_iff,List.mem_cons]
    constructor
    · intro left
      refine ⟨.inr left,?_⟩
      rintro rfl
      exact (List.nodup_cons.mp distinct).1 left
    · rintro ⟨same | left,different⟩
      · exact absurd same different
      · exact left

theorem Sound.released_once_iff (sound : ledger.Sound) :
    (∀ serial, serial < ledger.granted → ledger.released.count serial = 1) ↔ ledger.live = [] := by
  have total (serial : Nat) (given : serial < ledger.granted) :
      ledger.released.count serial + ledger.serials.count serial = 1 := by
    rw [← List.count_append,sound.once.count_eq]
    exact List.count_eq_one_of_mem List.nodup_range (List.mem_range.mpr given)
  constructor
  · intro once
    rw [← List.map_eq_nil_iff,List.eq_nil_iff_forall_not_mem]
    intro serial out
    have given : serial < ledger.granted :=
      List.mem_range.mp (sound.once.subset (List.mem_append_right _ out))
    have one := total serial given
    have some : 0 < ledger.serials.count serial := List.count_pos_iff.mpr out
    rw [once serial given] at one
    omega
  · intro none serial given
    have one := total serial given
    rw [serials,none] at one
    exact one

section Owners

variable {ι : Type} {held : ι → List α}

structure Owned (ledger : Ledger α) (held : ι → List α) : Prop where
  sound : ledger.Sound
  live : ∀ {name handle}, handle ∈ held name → handle ∈ ledger.handles
  each : ∀ name, (held name).Nodup
  apart : ∀ {first second handle}, handle ∈ held first → handle ∈ held second → first = second

def Lost (ledger : Ledger α) (held : ι → List α) (handle : α) : Prop :=
  handle ∈ ledger.handles ∧ ∀ name, handle ∉ held name

theorem Sound.owned (sound : ledger.Sound) (none : ∀ name, held name = []) : Owned ledger held where
  sound := sound
  live := by
    intro name handle has
    rw [none name] at has
    cases has
  each := by
    intro name
    rw [none name]
    exact List.nodup_nil
  apart := by
    intro first second handle has
    rw [none first] at has
    cases has

theorem Owned.grant (owned : Owned ledger held) (fresh : handle ∉ ledger.handles) :
    Owned (ledger.grant handle) held where
  sound := owned.sound.grant fresh
  live := fun has => mem_handles_grant.mpr (.inl (owned.live has))
  each := owned.each
  apart := owned.apart

theorem Owned.lost_grant (owned : Owned ledger held) (fresh : handle ∉ ledger.handles) :
    Lost (ledger.grant handle) held other ↔ Lost ledger held other ∨ other = handle := by
  unfold Lost
  rw [mem_handles_grant]
  constructor
  · rintro ⟨out | same,nobody⟩
    · exact .inl ⟨out,nobody⟩
    · exact .inr same
  · rintro (⟨out,nobody⟩ | rfl)
    · exact ⟨.inl out,nobody⟩
    · exact ⟨.inr rfl,fun name has => fresh (owned.live has)⟩

variable {bundle : List α}

theorem Owned.grantAll (owned : Owned ledger held) (distinct : bundle.Nodup)
    (fresh : ∀ handle ∈ bundle, handle ∉ ledger.handles) :
    Owned (bundle.foldl Ledger.grant ledger) held ∧
      ∀ other, Lost (bundle.foldl Ledger.grant ledger) held other ↔ Lost ledger held other ∨ other ∈ bundle := by
  induction bundle generalizing ledger with
  | nil =>
    refine ⟨owned,fun other => ?_⟩
    rw [or_iff_left List.not_mem_nil]
    exact Iff.rfl
  | cons first rest ih =>
    obtain ⟨apart,distinct⟩ := List.nodup_cons.mp distinct
    obtain ⟨new,later⟩ := List.forall_mem_cons.mp fresh
    obtain ⟨done,lost⟩ := ih (owned.grant new) distinct (by
      intro handle inside out
      rcases mem_handles_grant.mp out with before | same
      · exact later handle inside before
      · exact apart (same ▸ inside))
    refine ⟨done,fun other => ?_⟩
    rw [List.foldl_cons,lost other,owned.lost_grant new,List.mem_cons,or_assoc]

theorem Owned.giveBack [DecidableEq α] (owned : Owned ledger held) (distinct : bundle.Nodup)
    (lost : ∀ handle ∈ bundle, Lost ledger held handle) :
    Owned (bundle.foldl release ledger) held ∧
      ∀ other, Lost (bundle.foldl release ledger) held other ↔ Lost ledger held other ∧ other ∉ bundle := by
  induction bundle generalizing ledger with
  | nil =>
    refine ⟨owned,fun other => ?_⟩
    exact ⟨fun gone => ⟨gone,List.not_mem_nil⟩,fun gone => gone.1⟩
  | cons first rest ih =>
    obtain ⟨apart,distinct⟩ := List.nodup_cons.mp distinct
    obtain ⟨out,nobody⟩ := lost first List.mem_cons_self
    obtain ⟨sound,left⟩ := owned.sound.release out
    have next : Owned (ledger.release first) held := by
      refine ⟨sound,fun {name handle} has => ?_,owned.each,owned.apart⟩
      refine (left handle).mpr ⟨owned.live has,?_⟩
      rintro rfl
      exact nobody name has
    have later (other : α) : Lost (ledger.release first) held other ↔ Lost ledger held other ∧ other ≠ first := by
      unfold Lost
      rw [left other]
      exact and_right_comm
    obtain ⟨done,gone⟩ := ih next distinct (by
      intro handle inside
      refine (later handle).mpr ⟨lost handle (List.mem_cons_of_mem first inside),?_⟩
      rintro rfl
      exact apart inside)
    refine ⟨done,fun other => ?_⟩
    rw [List.foldl_cons,gone other,later other,List.mem_cons,not_or,and_assoc]

/-- Without owners, every grant has been released once exactly if nothing is lost. -/
theorem Owned.released_once_iff (owned : Owned ledger held) (none : ∀ name, held name = []) :
    (∀ serial, serial < ledger.granted → ledger.released.count serial = 1) ↔ ∀ handle, ¬ Lost ledger held handle := by
  rw [owned.sound.released_once_iff,← List.map_eq_nil_iff,List.eq_nil_iff_forall_not_mem]
  apply forall_congr'
  intro handle
  apply not_congr
  constructor
  · intro out
    refine ⟨out,fun name has => ?_⟩
    rw [none name] at has
    cases has
  · exact fun lost => lost.1

theorem lost_without (kept : ∀ handle ∈ bundle, ¬ Lost ledger held handle) :
    (Lost ledger held other ∨ other ∈ bundle) ∧ other ∉ bundle ↔ Lost ledger held other := by
  constructor
  · rintro ⟨lost | inside,outside⟩
    · exact lost
    · exact absurd inside outside
  · intro lost
    exact ⟨.inl lost,fun inside => kept other inside lost⟩

theorem not_lost_of_fresh (fresh : ∀ handle ∈ bundle, handle ∉ ledger.handles) :
    ∀ handle ∈ bundle, ¬ Lost ledger held handle := fun handle inside lost => fresh handle inside lost.1

theorem not_lost_of_held {name : ι} : ∀ handle ∈ held name, ¬ Lost ledger held handle :=
  fun _ mine lost => lost.2 name mine

theorem Owned.reindex (owned : Owned ledger held) (rename : ι ≃ ι) :
    Owned ledger (fun name => held (rename name)) ∧
      ∀ other, Lost ledger (fun name => held (rename name)) other ↔ Lost ledger held other := by
  refine ⟨⟨owned.sound,fun has => owned.live has,fun name => owned.each _,fun one two => ?_⟩,fun other => ?_⟩
  · exact rename.injective (owned.apart one two)
  · constructor
    · rintro ⟨out,nobody⟩
      refine ⟨out,fun name has => nobody (rename.symm name) ?_⟩
      change other ∈ held (rename (rename.symm name))
      rw [rename.apply_symm_apply]
      exact has
    · rintro ⟨out,nobody⟩
      exact ⟨out,fun name has => nobody _ has⟩

variable [DecidableEq ι]

theorem Owned.give (owned : Owned ledger held) {name : ι} (none : held name = [])
    (distinct : bundle.Nodup) (lost : ∀ handle ∈ bundle, Lost ledger held handle) :
    Owned ledger (Function.update held name bundle) ∧
      ∀ other, Lost ledger (Function.update held name bundle) other ↔ Lost ledger held other ∧ other ∉ bundle := by
  have cases {owner : ι} {handle : α} (has : handle ∈ Function.update held name bundle owner) :
      owner = name ∧ handle ∈ bundle ∨ handle ∈ held owner := by
    by_cases same : owner = name
    · rw [same,Function.update_self] at has
      exact .inl ⟨same,has⟩
    · rw [Function.update_of_ne same] at has
      exact .inr has
  refine ⟨⟨owned.sound,?_,?_,?_⟩,?_⟩
  · intro owner handle has
    rcases cases has with ⟨_,given⟩ | before
    · exact (lost handle given).1
    · exact owned.live before
  · intro owner
    by_cases same : owner = name
    · rw [same,Function.update_self]
      exact distinct
    · rw [Function.update_of_ne same]
      exact owned.each owner
  · intro first second handle one two
    rcases cases one with ⟨here,given⟩ | before
    · rcases cases two with ⟨there,_⟩ | other
      · rw [here,there]
      · exact absurd other ((lost handle given).2 second)
    · rcases cases two with ⟨_,given⟩ | other
      · exact absurd before ((lost handle given).2 first)
      · exact owned.apart before other
  · intro other
    constructor
    · rintro ⟨out,nobody⟩
      refine ⟨⟨out,fun owner has => ?_⟩,fun given => ?_⟩
      · have here := nobody owner
        by_cases same : owner = name
        · rw [same,none] at has
          cases has
        · rw [Function.update_of_ne same] at here
          exact here has
      · have here := nobody name
        rw [Function.update_self] at here
        exact here given
    · rintro ⟨⟨out,nobody⟩,kept⟩
      refine ⟨out,fun owner has => ?_⟩
      rcases cases has with ⟨_,given⟩ | before
      · exact kept given
      · exact nobody owner before

theorem Owned.clear (owned : Owned ledger held) (name : ι) :
    Owned ledger (Function.update held name []) ∧
      ∀ other, Lost ledger (Function.update held name []) other ↔ Lost ledger held other ∨ other ∈ held name := by
  have before {owner : ι} {handle : α} (has : handle ∈ Function.update held name [] owner) :
      owner ≠ name ∧ handle ∈ held owner := by
    by_cases same : owner = name
    · rw [same,Function.update_self] at has
      cases has
    · rw [Function.update_of_ne same] at has
      exact ⟨same,has⟩
  refine ⟨⟨owned.sound,fun has => owned.live (before has).2,?_,fun one two => owned.apart (before one).2 (before two).2⟩,?_⟩
  · intro owner
    by_cases same : owner = name
    · rw [same,Function.update_self]
      exact List.nodup_nil
    · rw [Function.update_of_ne same]
      exact owned.each owner
  · intro other
    constructor
    · rintro ⟨out,nobody⟩
      by_cases mine : other ∈ held name
      · exact .inr mine
      · refine .inl ⟨out,fun owner has => ?_⟩
        have different : owner ≠ name := by
          rintro rfl
          exact mine has
        have here := nobody owner
        rw [Function.update_of_ne different] at here
        exact here has
    · rintro (⟨out,nobody⟩ | mine)
      · exact ⟨out,fun owner has => nobody owner (before has).2⟩
      · refine ⟨owned.live mine,fun owner has => ?_⟩
        obtain ⟨different,has⟩ := before has
        exact different (owned.apart has mine)

theorem Owned.drop [DecidableEq α] (owned : Owned ledger held) (name : ι) :
    Owned ((held name).foldl release ledger) (Function.update held name []) ∧
      ∀ other, Lost ((held name).foldl release ledger) (Function.update held name []) other ↔ Lost ledger held other := by
  obtain ⟨cleared,free⟩ := owned.clear name
  obtain ⟨done,gone⟩ := cleared.giveBack (owned.each name) (fun handle mine => (free handle).mpr (.inr mine))
  refine ⟨done,fun other => ?_⟩
  rw [gone other,free other]
  exact lost_without not_lost_of_held

theorem Owned.move (owned : Owned ledger held) {target source : ι} (none : held target = []) (different : target ≠ source) :
    Owned ledger (Function.update (Function.update held source []) target (held source)) ∧
      ∀ other, Lost ledger (Function.update (Function.update held source []) target (held source)) other ↔
        Lost ledger held other := by
  obtain ⟨cleared,free⟩ := owned.clear source
  have empty : Function.update held source [] target = [] := by
    rw [Function.update_of_ne different,none]
  obtain ⟨done,gone⟩ := cleared.give empty (owned.each source) (fun handle mine => (free handle).mpr (.inr mine))
  refine ⟨done,fun other => ?_⟩
  rw [gone other,free other]
  exact lost_without not_lost_of_held

end Owners

end Ledger

end Abtrda3.Semantics
