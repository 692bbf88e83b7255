import Mathlib.Logic.Relation

/-! A loop that need not end: a deterministic step on the state, with no successor where
the loop is left. It halts from a state if it gets to one it is left in; a measure shows
that it does, an invariant under which it always goes on that it does not. -/
namespace Abtrda3.Semantics.Loop

variable {σ : Type} {step : σ → Option σ} {s t u : σ}

def Reaches (step : σ → Option σ) : σ → σ → Prop := Relation.ReflTransGen (fun s t => step s = some t)

def Halts (step : σ → Option σ) (s : σ) : Prop := ∃ t, Reaches step s t ∧ step t = none

theorem Reaches.refl (s : σ) : Reaches step s s := Relation.ReflTransGen.refl

theorem Reaches.trans (before : Reaches step s t) (after : Reaches step t u) : Reaches step s u :=
  Relation.ReflTransGen.trans before after

theorem Reaches.head (moved : step s = some t) (after : Reaches step t u) : Reaches step s u :=
  Relation.ReflTransGen.head moved after

theorem Reaches.one (moved : step s = some t) : Reaches step s t := Relation.ReflTransGen.single moved

theorem Reaches.cases_head (reached : Reaches step s u) : s = u ∨ ∃ t, step s = some t ∧ Reaches step t u :=
  Relation.ReflTransGen.cases_head reached

theorem Reaches.of_final (reached : Reaches step s t) (left : step s = none) : s = t := by
  rcases reached.cases_head with same | ⟨next,moved,_⟩
  · exact same
  · rw [left] at moved
    cases moved

theorem Reaches.invariant (reached : Reaches step s t) (inv : σ → Prop)
    (preserved : ∀ s t, inv s → step s = some t → inv t) (start : inv s) : inv t := by
  induction reached with
  | refl => exact start
  | tail _ moved ih => exact preserved _ _ ih moved

/-- There is only one way on from a state, so two states reached from it are in line. -/
theorem Reaches.linear (first : Reaches step s t) (second : Reaches step s u) : Reaches step t u ∨ Reaches step u t := by
  refine Relation.ReflTransGen.total_of_right_unique ?_ first second
  intro state left right movedLeft movedRight
  exact Option.some.inj (movedLeft.symm.trans movedRight)

theorem Reaches.to_final (reached : Reaches step s t) (ended : Reaches step s u) (left : step u = none) :
    Reaches step t u := by
  rcases reached.linear ended with onward | back
  · exact onward
  · exact back.of_final left ▸ Reaches.refl u

theorem Halts.of_reaches (reached : Reaches step s t) (halts : Halts step t) : Halts step s := by
  obtain ⟨final,onward,left⟩ := halts
  exact ⟨final,reached.trans onward,left⟩

theorem Halts.onward (halts : Halts step s) (reached : Reaches step s t) : Halts step t := by
  obtain ⟨final,ended,left⟩ := halts
  exact ⟨final,reached.to_final ended left,left⟩

/-- A measure that every step lowers while the invariant holds. -/
theorem halts_of_measure (inv : σ → Prop) (measure : σ → Nat)
    (lower : ∀ s t, inv s → step s = some t → inv t ∧ measure t < measure s) (start : inv s) : Halts step s := by
  induction size : measure s using Nat.strongRecOn generalizing s with
  | ind n ih =>
    cases moved : step s with
    | none => exact ⟨s,Reaches.refl s,moved⟩
    | some t =>
      obtain ⟨kept,less⟩ := lower s t start moved
      exact (ih (measure t) (size ▸ less) kept rfl).of_reaches (Reaches.one moved)

/-- An invariant whose states all have a successor. -/
theorem not_halts_of_invariant (inv : σ → Prop) (goesOn : ∀ s, inv s → ∃ t, step s = some t ∧ inv t) (start : inv s) :
    ¬Halts step s := by
  rintro ⟨final,ended,left⟩
  have kept : inv final := by
    refine ended.invariant inv ?_ start
    intro state next holds moved
    obtain ⟨same,movedSame,holdsNext⟩ := goesOn state holds
    rw [moved] at movedSame
    exact Option.some.inj movedSame ▸ holdsNext
  obtain ⟨next,moved,_⟩ := goesOn final kept
  rw [left] at moved
  cases moved

def turns (step : σ → Option σ) : Nat → σ → σ
  | 0, s => s
  | n + 1, s =>
    match step s with
    | none => s
    | some t => turns step n t

theorem reaches_turns (step : σ → Option σ) (n : Nat) (s : σ) : Reaches step s (turns step n s) := by
  induction n generalizing s with
  | zero => exact Reaches.refl s
  | succ n ih =>
    unfold turns
    cases moved : step s with
    | none => exact Reaches.refl s
    | some t => exact Reaches.head moved (ih t)

theorem turns_succ (n : Nat) (moved : step s = some t) : turns step (n + 1) s = turns step n t := by
  rw [turns,moved]

/-- The states of a run that is over after `n` turns. -/
theorem Reaches.of_turns (reached : Reaches step s t) (n : Nat) (left : step (turns step n s) = none) :
    ∃ k ≤ n, turns step k s = t := by
  induction n generalizing s with
  | zero => exact ⟨0,Nat.le_refl 0,reached.of_final left⟩
  | succ n ih =>
    rcases reached.cases_head with same | ⟨next,moved,rest⟩
    · exact ⟨0,Nat.zero_le _,same⟩
    · rw [turns_succ n moved] at left
      obtain ⟨k,bound,same⟩ := ih rest left
      exact ⟨k + 1,Nat.succ_le_succ bound,(turns_succ k moved).trans same⟩

end Abtrda3.Semantics.Loop
