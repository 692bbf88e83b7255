import Mathlib.Data.List.Forall2

/-! Finite runs of a partial labelled machine. An input that is not enabled in a
state has no successor, so a run is exactly a list of enabled inputs. Properties
of single steps are collected along a run with the state each step starts from. A log
that a run keeps only grows at its end. -/
namespace Abtrda3.Semantics.Machine

variable {σ ι : Type}

def run (step : σ → ι → Option σ) : σ → List ι → Option σ
  | state, [] => some state
  | state, input::rest => (step state input).bind (fun next => run step next rest)

def Along (step : σ → ι → Option σ) (ok : σ → ι → Prop) : σ → List ι → Prop
  | _, [] => True
  | state, input::rest =>
    ok state input ∧ ∀ next, step state input = some next → Along step ok next rest

instance decidableAlong {step : σ → ι → Option σ} {ok : σ → ι → Prop} [∀ state input, Decidable (ok state input)] :
    (state : σ) → (inputs : List ι) → Decidable (Along step ok state inputs)
  | _, [] => isTrue trivial
  | state, input::rest =>
    have : Decidable (∀ next, step state input = some next → Along step ok next rest) :=
      match step state input with
      | none => isTrue (fun _ moved => nomatch moved)
      | some next =>
        have : Decidable (Along step ok next rest) := decidableAlong next rest
        decidable_of_iff (Along step ok next rest)
          ⟨fun holds _ moved => Option.some.inj moved ▸ holds,fun holds => holds next rfl⟩
    inferInstanceAs (Decidable (_ ∧ _))

@[simp] theorem run_nil (step : σ → ι → Option σ) (state : σ) : run step state [] = some state := rfl

@[simp] theorem run_cons (step : σ → ι → Option σ) (state : σ) (input : ι) (rest : List ι) :
    run step state (input::rest) = (step state input).bind (fun next => run step next rest) := rfl

variable {step : σ → ι → Option σ} {state final : σ} {inputs : List ι} {ok : σ → ι → Prop}

theorem run_singleton {state next : σ} {input : ι} (moved : step state input = some next) :
    run step state [input] = some next := by
  rw [run_cons,moved]
  rfl

theorem run_append (step : σ → ι → Option σ) (state : σ) (first second : List ι) :
    run step state (first ++ second) = (run step state first).bind (fun next => run step next second) := by
  induction first generalizing state with
  | nil => rfl
  | cons input rest ih =>
    simp only [List.cons_append,run_cons]
    cases moved : step state input with
    | none => rfl
    | some next => simpa using ih next

theorem run_trans {state middle final : σ} {first second : List ι}
    (before : run step state first = some middle) (after : run step middle second = some final) :
    run step state (first ++ second) = some final := by
  rw [run_append,before]
  exact after

theorem run_cons_some {input : ι} {rest : List ι}
    (ran : run step state (input::rest) = some final) :
    ∃ next, step state input = some next ∧ run step next rest = some final := by
  simpa [Option.bind_eq_some_iff] using ran

/-- A property that every admitted step preserves holds in the last state of
every run whose steps are all admitted. -/
theorem run_invariant (inv : σ → Prop)
    (preserved : ∀ state input next, inv state → ok state input → step state input = some next → inv next)
    (start : inv state) (admitted : Along step ok state inputs)
    (ran : run step state inputs = some final) : inv final := by
  induction inputs generalizing state with
  | nil =>
    simp only [run_nil,Option.some.injEq] at ran
    exact ran ▸ start
  | cons input rest ih =>
    obtain ⟨next,moved,tail⟩ := run_cons_some ran
    exact ih (preserved state input next start admitted.1 moved) (admitted.2 next moved) tail

theorem along_of_forall {ok : ι → Prop} (state : σ)
    (all : ∀ input ∈ inputs, ok input) : Along step (fun _ => ok) state inputs := by
  induction inputs generalizing state with
  | nil => trivial
  | cons input rest ih =>
    rw [List.forall_mem_cons] at all
    exact ⟨all.1,fun next _ => ih next all.2⟩

theorem along_true (step : σ → ι → Option σ) (state : σ) (inputs : List ι) :
    Along step (fun _ _ => True) state inputs := along_of_forall state (fun _ _ => trivial)

theorem reachable_invariant (inv : σ → Prop)
    (preserved : ∀ state input next, inv state → step state input = some next → inv next)
    (start : inv state)
    (ran : run step state inputs = some final) : inv final :=
  run_invariant inv (fun s i n h _ moved => preserved s i n h moved) start (along_true step state inputs) ran

/-- An invariant may speak of the inputs that led to a state. -/
theorem history_invariant (inv : List ι → σ → Prop)
    (preserved : ∀ past state input next, inv past state → step state input = some next → inv (past ++ [input]) next)
    {past inputs : List ι} (start : inv past state) (ran : run step state inputs = some final) :
    inv (past ++ inputs) final := by
  induction inputs generalizing past state with
  | nil =>
    cases Option.some.inj ran
    rw [List.append_nil]
    exact start
  | cons input rest ih =>
    obtain ⟨next,moved,tail⟩ := run_cons_some ran
    rw [List.append_cons]
    exact ih (preserved past state input next start moved) tail

/-- Under an invariant one condition on the steps of a run gives another. -/
theorem along_of_invariant {weak strong : σ → ι → Prop} (inv : σ → Prop)
    (preserved : ∀ state input next, inv state → weak state input → step state input = some next → inv next)
    (meets : ∀ state input, inv state → weak state input → strong state input)
    {state : σ} (start : inv state) (holds : Along step weak state inputs) :
    Along step strong state inputs := by
  induction inputs generalizing state with
  | nil => trivial
  | cons input rest ih =>
    refine ⟨meets state input start holds.1,fun next moved => ?_⟩
    exact ih (preserved state input next start holds.1 moved) (holds.2 next moved)

/-- Two conditions that agree wherever an invariant holds agree along a run, if one of
them preserves the invariant. Both may rest on a third that the run meets. -/
theorem along_iff_of_invariant {given left right : σ → ι → Prop} (inv : σ → Prop)
    (preserved : ∀ state input next, inv state → given state input → left state input →
      step state input = some next → inv next)
    (same : ∀ state input, inv state → given state input → (left state input ↔ right state input))
    {state : σ} (start : inv state) (holds : Along step given state inputs) :
    Along step left state inputs ↔ Along step right state inputs := by
  induction inputs generalizing state with
  | nil => exact Iff.rfl
  | cons input rest ih =>
    have here := same state input start holds.1
    constructor
    · rintro ⟨now,later⟩
      refine ⟨here.mp now,fun next moved => ?_⟩
      exact (ih (preserved state input next start holds.1 now moved) (holds.2 next moved)).mp (later next moved)
    · rintro ⟨now,later⟩
      refine ⟨here.mpr now,fun next moved => ?_⟩
      exact (ih (preserved state input next start holds.1 (here.mpr now) moved) (holds.2 next moved)).mpr (later next moved)

/-- A count that stands still at the admitted steps of a run and grows at every other one
is unchanged exactly if all steps were admitted. -/
theorem count_eq_iff_along (count : σ → Nat)
    (still : ∀ state input next, step state input = some next → ok state input → count next = count state)
    (grows : ∀ state input next, step state input = some next → ¬ ok state input → count state < count next)
    (ran : run step state inputs = some final) :
    count final = count state ↔ Along step ok state inputs := by
  have steps : ∀ state input next, step state input = some next → count state ≤ count next := by
    intro state input next moved
    by_cases admitted : ok state input
    · exact Nat.le_of_eq (still state input next moved admitted).symm
    · exact Nat.le_of_lt (grows state input next moved admitted)
  induction inputs generalizing state with
  | nil =>
    cases Option.some.inj ran
    exact ⟨fun _ => trivial,fun _ => rfl⟩
  | cons input rest ih =>
    obtain ⟨next,moved,tail⟩ := run_cons_some ran
    have later : count next ≤ count final :=
      reachable_invariant (fun reached => count next ≤ count reached)
        (fun s i n below went => Nat.le_trans below (steps s i n went)) (Nat.le_refl _) tail
    constructor
    · intro same
      have admitted : ok state input := by
        by_contra refused
        have more := grows state input next moved refused
        omega
      refine ⟨admitted,fun other went => ?_⟩
      cases Option.some.inj (moved.symm.trans went)
      have here := still state input next moved admitted
      exact (ih tail).mp (by omega)
    · rintro ⟨admitted,after⟩
      rw [(ih tail).mpr (after next moved),still state input next moved admitted]

/-- A fault that steps outside a condition make, that admitted steps do not make and that
only the end of all steps can undo is absent exactly if every step was admitted. -/
theorem faultless_iff_along (fault stopped inv : σ → Prop)
    (preserved : ∀ state input next, inv state → step state input = some next → inv next)
    (ended : ∀ state input next, step state input = some next → ¬ stopped state)
    (stays : ∀ state input next, inv state → step state input = some next → ¬ stopped next → fault state → fault next)
    (admits : ∀ state input next, inv state → step state input = some next → ok state input → ¬ fault state → ¬ fault next)
    (makes : ∀ state input next, inv state → step state input = some next → ¬ ok state input → fault next)
    (start : inv state) (clean : ¬ fault state)
    (ran : run step state inputs = some final) (going : ¬ stopped final) :
    ¬ fault final ↔ Along step ok state inputs := by
  have persists {state : σ} {inputs : List ι} (start : inv state) (ran : run step state inputs = some final)
      (bad : fault state) : fault final := by
    induction inputs generalizing state with
    | nil =>
      cases Option.some.inj ran
      exact bad
    | cons input rest ih =>
      obtain ⟨next,moved,tail⟩ := run_cons_some ran
      have alive : ¬ stopped next := by
        cases rest with
        | nil =>
          cases Option.some.inj tail
          exact going
        | cons second others =>
          obtain ⟨after,again,_⟩ := run_cons_some tail
          exact ended next second after again
      exact ih (preserved state input next start moved) tail (stays state input next start moved alive bad)
  induction inputs generalizing state with
  | nil =>
    cases Option.some.inj ran
    exact ⟨fun _ => trivial,fun _ => clean⟩
  | cons input rest ih =>
    obtain ⟨next,moved,tail⟩ := run_cons_some ran
    have later := preserved state input next start moved
    constructor
    · intro good
      have admitted : ok state input := by
        by_contra refused
        exact good (persists later tail (makes state input next start moved refused))
      refine ⟨admitted,fun other went => ?_⟩
      cases Option.some.inj (moved.symm.trans went)
      exact (ih later (admits state input next start moved admitted clean) tail).mp good
    · rintro ⟨admitted,after⟩
      exact (ih later (admits state input next start moved admitted clean) tail).mpr (after next moved)

theorem along_append {state middle : σ} {first second : List ι}
    (before : Along step ok state first) (ran : run step state first = some middle)
    (after : Along step ok middle second) : Along step ok state (first ++ second) := by
  induction first generalizing state with
  | nil =>
    cases Option.some.inj ran
    exact after
  | cons input rest ih =>
    obtain ⟨next,moved,tail⟩ := run_cons_some ran
    refine ⟨before.1,fun other went => ?_⟩
    cases Option.some.inj (moved.symm.trans went)
    exact ih (before.2 next moved) tail

theorem along_mono {strong weak : σ → ι → Prop}
    (weakens : ∀ state input, strong state input → weak state input) {state : σ}
    (holds : Along step strong state inputs) : Along step weak state inputs :=
  along_of_invariant (fun _ => True) (fun _ _ _ _ _ _ => trivial) (fun s i _ => weakens s i) trivial holds

theorem along_congr {left right : σ → ι → Prop}
    (same : ∀ state input, left state input ↔ right state input) (state : σ) (inputs : List ι) :
    Along step left state inputs ↔ Along step right state inputs := by
  induction inputs generalizing state with
  | nil => exact Iff.rfl
  | cons input rest ih =>
    simp only [Along,same state input,ih]

/-- Two runs whose inputs are alike stay related, and one stops where the other does. -/
theorem run_related {related : σ → σ → Prop} {alike : ι → ι → Prop}
    (keeps : ∀ state other input given, related state other → alike input given →
      Option.Rel related (step state input) (step other given))
    {state other : σ} {inputs givens : List ι} (begun : related state other) (pairs : List.Forall₂ alike inputs givens) :
    Option.Rel related (run step state inputs) (run step other givens) := by
  induction pairs generalizing state other with
  | nil => exact .some begun
  | @cons input given inputs givens same rest ih =>
    have moved := keeps state other input given begun same
    rw [run_cons,run_cons]
    generalize step state input = next at moved ⊢
    generalize step other given = after at moved ⊢
    cases moved with
    | none => exact .none
    | some kept => exact ih kept

theorem log_snoc_cases {items : List σ} {last found : σ} {i : Nat}
    (here : (items ++ [last])[i]? = some found) : items[i]? = some found ∨ (i = items.length ∧ last = found) := by
  rw [List.getElem?_append] at here
  split at here
  · exact .inl here
  · rw [List.getElem?_singleton] at here
    split at here
    · exact .inr ⟨by omega,Option.some.inj here⟩
    · cases here

theorem log_of_isPrefix {items more : List σ} (grown : items <+: more) {i : Nat} {found : σ}
    (here : items[i]? = some found) : more[i]? = some found := by
  obtain ⟨rest,rfl⟩ := grown
  rw [List.getElem?_append_left (List.getElem?_eq_some_iff.mp here).1,here]

end Abtrda3.Semantics.Machine
