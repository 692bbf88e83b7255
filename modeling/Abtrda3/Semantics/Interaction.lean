import Abtrda3.Semantics.Machine

/-! Programs that make calls and go on with the answers. What answers is not known: a run
of a program is any sequence of answered calls it may make. A monitor is a machine over
answered calls. `Safe` says that the monitor follows a program whatever is answered, as far
as the answers are allowed, and what holds of the result and the monitor at the end;
`Costs` bounds what the calls of a run add up to. -/
namespace Abtrda3.Semantics.Interaction
open Abtrda3.Semantics.Machine

inductive Program (Call : Type) (Reply : Call → Type) (α : Type) : Type
  | done (value : α)
  | call (request : Call) (next : Reply request → Program Call Reply α)

structure Exchange (Call : Type) (Reply : Call → Type) where
  request : Call
  reply : Reply request

variable {Call : Type} {Reply : Call → Type} {α β ι σ : Type}

namespace Program

protected def bind : Program Call Reply α → (α → Program Call Reply β) → Program Call Reply β
  | .done value, f => f value
  | .call request next, f => .call request (fun reply => (next reply).bind f)

instance : Monad (Program Call Reply) where
  pure := .done
  bind := Program.bind

@[simp] theorem pure_eq (value : α) : (pure value : Program Call Reply α) = .done value := rfl

@[simp] theorem bind_eq (p : Program Call Reply α) (f : α → Program Call Reply β) : p >>= f = p.bind f := rfl

def ask (request : Call) : Program Call Reply (Reply request) := .call request .done

def attempts (turn : Program Call Reply (Option α)) : Nat → Program Call Reply (Option α)
  | 0 => .done none
  | n + 1 => turn.bind fun
    | some value => .done (some value)
    | none => attempts turn n

def given (has : Bool) (body : Program Call Reply α) (otherwise : α) : Program Call Reply α :=
  if has then body else .done otherwise

def each (body : ι → Program Call Reply Unit) : List ι → Program Call Reply Unit
  | [] => .done ()
  | i::rest => (body i).bind fun _ => each body rest

def exec (answer : σ → (request : Call) → Reply request × σ) : σ → Program Call Reply α → List (Exchange Call Reply) × α
  | _, .done value => ([],value)
  | s, .call request next =>
    let (reply,s) := answer s request
    let (trace,value) := exec answer s (next reply)
    (⟨request,reply⟩::trace,value)

end Program

open Program

inductive Runs : Program Call Reply α → List (Exchange Call Reply) → α → Prop
  | done (value : α) : Runs (.done value) [] value
  | call {request : Call} {next : Reply request → Program Call Reply α} {trace : List (Exchange Call Reply)} {value : α}
      (reply : Reply request) (rest : Runs (next reply) trace value) :
        Runs (.call request next) (⟨request,reply⟩::trace) value

theorem runs_exec (answer : σ → (request : Call) → Reply request × σ) (s : σ) (p : Program Call Reply α) :
    Runs p (exec answer s p).1 (exec answer s p).2 := by
  induction p generalizing s with
  | done value => exact .done value
  | call request next ih => exact .call _ (ih _ _)

theorem runs_bind {p : Program Call Reply α} {f : α → Program Call Reply β} {trace : List (Exchange Call Reply)}
    {result : β}
    (ran : Runs (p.bind f) trace result) :
    ∃ first value last, trace = first ++ last ∧ Runs p first value ∧ Runs (f value) last result := by
  induction p generalizing trace with
  | done value => exact ⟨[],value,trace,rfl,.done value,ran⟩
  | call request next ih =>
    cases ran with
    | call reply rest =>
      obtain ⟨first,value,last,rfl,before,after⟩ := ih reply rest
      exact ⟨⟨request,reply⟩::first,value,last,rfl,.call reply before,after⟩

section Monitors

variable (watch : σ → Exchange Call Reply → Option σ) (allows : σ → Exchange Call Reply → Prop)

def Safe (s : σ) : Program Call Reply α → (α → σ → Prop) → Prop
  | .done value, post => post value s
  | .call request next, post =>
    ∀ reply, allows s ⟨request,reply⟩ → ∃ t, watch s ⟨request,reply⟩ = some t ∧ Safe t (next reply) post

variable {watch allows} {s : σ}

@[simp] theorem safe_done {value : α} {post : α → σ → Prop} :
    Safe watch allows s (.done value) post ↔ post value s := Iff.rfl

theorem safe_ask {request : Call} {post : Reply request → σ → Prop} :
    Safe watch allows s (ask request) post ↔
      ∀ reply, allows s ⟨request,reply⟩ → ∃ t, watch s ⟨request,reply⟩ = some t ∧ post reply t := Iff.rfl

@[simp] theorem safe_bind {p : Program Call Reply α} {f : α → Program Call Reply β} {post : β → σ → Prop} :
    Safe watch allows s (p.bind f) post ↔ Safe watch allows s p (fun value t => Safe watch allows t (f value) post) := by
  induction p generalizing s with
  | done value => rfl
  | call request next ih =>
    change (∀ reply, _ → ∃ t, _ ∧ Safe watch allows t ((next reply).bind f) post) ↔
      ∀ reply, _ → ∃ t, _ ∧ Safe watch allows t (next reply) _
    simp only [ih]

variable {p : Program Call Reply α}

theorem Safe.mono {post weaker : α → σ → Prop} (safe : Safe watch allows s p post)
    (follows : ∀ value t, post value t → weaker value t) : Safe watch allows s p weaker := by
  induction p generalizing s with
  | done value => exact follows value s safe
  | call request next ih =>
    intro reply allowed
    obtain ⟨t,moved,after⟩ := safe reply allowed
    exact ⟨t,moved,ih reply after⟩

theorem Safe.and {first second : α → σ → Prop} (one : Safe watch allows s p first)
    (two : Safe watch allows s p second) : Safe watch allows s p (fun value t => first value t ∧ second value t) := by
  induction p generalizing s with
  | done value => exact ⟨one,two⟩
  | call request next ih =>
    intro reply allowed
    obtain ⟨t,moved,after⟩ := one reply allowed
    obtain ⟨u,again,also⟩ := two reply allowed
    cases Option.some.inj (moved.symm.trans again)
    exact ⟨t,moved,ih reply after also⟩

/-- A monitor that follows wherever another one does. -/
theorem Safe.relax {other : σ → Exchange Call Reply → Option σ} {post : α → σ → Prop}
    (safe : Safe watch allows s p post) (follows : ∀ s exchange t, watch s exchange = some t → other s exchange = some t) :
    Safe other allows s p post := by
  induction p generalizing s with
  | done value => exact safe
  | call request next ih =>
    intro reply allowed
    obtain ⟨t,moved,after⟩ := safe reply allowed
    exact ⟨t,follows s _ t moved,ih reply after⟩

theorem safe_given {has : Bool} {body : Program Call Reply α} {otherwise : α} {post : α → σ → Prop}
    (does : has = true → Safe watch allows s body post) (skips : has = false → post otherwise s) :
    Safe watch allows s (given has body otherwise) post := by
  cases has with
  | true => exact does rfl
  | false => exact skips rfl

theorem safe_attempts {turn : Program Call Reply (Option α)} (inv : σ → Prop) (found : α → σ → Prop)
    (body : ∀ s, inv s → Safe watch allows s turn (fun result t => result.elim (inv t) (fun value => found value t)))
    (n : Nat) (start : inv s) :
    Safe watch allows s (attempts turn n) (fun result t => result.elim (inv t) (fun value => found value t)) := by
  induction n generalizing s with
  | zero => exact start
  | succ n ih =>
    refine safe_bind.mpr ((body s start).mono ?_)
    intro result t holds
    cases result with
    | none => exact ih holds
    | some value => exact holds

theorem safe_each {body : ι → Program Call Reply Unit} (inv : List ι → σ → Prop)
    (turn : ∀ s i rest, inv (i::rest) s → Safe watch allows s (body i) (fun _ t => inv rest t))
    (items : List ι) (start : inv items s) : Safe watch allows s (each body items) (fun _ t => inv [] t) := by
  induction items generalizing s with
  | nil => exact start
  | cons i rest ih => exact safe_bind.mpr ((turn s i rest start).mono (fun _ _ holds => ih holds))

theorem Safe.run {post : α → σ → Prop} {trace : List (Exchange Call Reply)} {value : α}
    (safe : Safe watch allows s p post) (ran : Runs p trace value) (allowed : Along watch allows s trace) :
    ∃ t, run watch s trace = some t ∧ post value t := by
  induction ran generalizing s with
  | done value => exact ⟨s,rfl,safe⟩
  | call reply rest ih =>
    obtain ⟨t,moved,after⟩ := safe reply allowed.1
    obtain ⟨final,onward,holds⟩ := ih after (allowed.2 t moved)
    exact ⟨final,by rw [run_cons,moved]; exact onward,holds⟩

variable (watch allows) in
/-- From wherever a condition holds, the program keeps it and moves the monitor inside a relation. -/
def Within (on : σ → Prop) (moves : σ → σ → Prop) (p : Program Call Reply α) : Prop :=
  ∀ s, on s → Safe watch allows s p (fun _ t => on t ∧ moves s t)

section Relations

variable {on : σ → Prop} {moves : σ → σ → Prop}

theorem within_done (refl : ∀ s, moves s s) (value : α) :
    Within watch allows on moves (.done value : Program Call Reply α) :=
  fun s holds => ⟨holds,refl s⟩

theorem Within.bind {p : Program Call Reply α} {f : α → Program Call Reply β}
    (trans : ∀ {s t u}, moves s t → moves t u → moves s u) (before : Within watch allows on moves p)
    (after : ∀ value, Within watch allows on moves (f value)) : Within watch allows on moves (p.bind f) := by
  intro s holds
  refine safe_bind.mpr ((before s holds).mono ?_)
  rintro value t ⟨still,first⟩
  exact (after value t still).mono (fun _ u later => ⟨later.1,trans first later.2⟩)

theorem Within.then {p : Program Call Reply α} {f : α → Program Call Reply β} {post : β → σ → Prop}
    (within : Within watch allows on moves p) (holds : on s)
    (after : ∀ value t, on t → moves s t → Safe watch allows t (f value) post) : Safe watch allows s (p.bind f) post :=
  safe_bind.mpr ((within s holds).mono (fun value t moved => after value t moved.1 moved.2))

theorem Within.attempts {turn : Program Call Reply (Option α)} (refl : ∀ s, moves s s)
    (trans : ∀ {s t u}, moves s t → moves t u → moves s u) (body : Within watch allows on moves turn) (n : Nat) :
    Within watch allows on moves (attempts turn n) := by
  induction n with
  | zero => exact within_done refl none
  | succ n ih =>
    refine Within.bind trans body (fun result => ?_)
    cases result with
    | none => exact ih
    | some value => exact within_done refl (some value)

theorem Within.each {body : ι → Program Call Reply Unit} (refl : ∀ s, moves s s)
    (trans : ∀ {s t u}, moves s t → moves t u → moves s u) (items : List ι)
    (turn : ∀ i ∈ items, Within watch allows on moves (body i)) : Within watch allows on moves (each body items) := by
  induction items with
  | nil => exact within_done refl ()
  | cons i rest ih =>
    rw [List.forall_mem_cons] at turn
    exact Within.bind trans turn.1 (fun _ => ih turn.2)

end Relations

end Monitors

section Costs

variable {cost : Call → Nat}

def total (cost : Call → Nat) : List (Exchange Call Reply) → Nat
  | [] => 0
  | exchange::rest => cost exchange.request + total cost rest

theorem total_append (cost : Call → Nat) (early late : List (Exchange Call Reply)) :
    total cost (early ++ late) = total cost early + total cost late := by
  induction early with
  | nil => exact (Nat.zero_add _).symm
  | cons exchange rest ih => rw [List.cons_append,total,total,ih,Nat.add_assoc]

def Costs (cost : Call → Nat) (p : Program Call Reply α) (bound : Nat) : Prop :=
  ∀ trace value, Runs p trace value → total cost trace ≤ bound

theorem costs_done (value : α) : Costs cost (.done value : Program Call Reply α) 0 := by
  intro trace result ran
  cases ran
  exact Nat.le_refl 0

theorem costs_ask (request : Call) : Costs cost (ask request : Program Call Reply _) (cost request) := by
  intro trace result ran
  cases ran with
  | call reply rest =>
    cases rest
    exact Nat.le_refl _

theorem Costs.mono {p : Program Call Reply α} {least bound : Nat} (costs : Costs cost p least) (below : least ≤ bound) :
    Costs cost p bound := fun trace value ran => Nat.le_trans (costs trace value ran) below

theorem Costs.bind {p : Program Call Reply α} {f : α → Program Call Reply β} {first bound : Nat}
    (before : Costs cost p first) (enough : first ≤ bound) (after : ∀ value, Costs cost (f value) (bound - first)) :
    Costs cost (p.bind f) bound := by
  intro trace result ran
  obtain ⟨early,value,late,rfl,ranEarly,ranLate⟩ := runs_bind ran
  have early := before early value ranEarly
  have late := after value late result ranLate
  rw [total_append]
  omega

theorem Costs.bind_free {p : Program Call Reply α} {f : α → Program Call Reply β} {bound : Nat}
    (before : Costs cost p 0) (after : ∀ value, Costs cost (f value) bound) : Costs cost (p.bind f) bound :=
  before.bind (Nat.zero_le bound) after

theorem Costs.given {has : Bool} {body : Program Call Reply α} {otherwise : α} {bound : Nat}
    (costs : Costs cost body bound) :
    Costs cost (given has body otherwise) bound := by
  cases has with
  | true => exact costs
  | false => exact (costs_done otherwise).mono (Nat.zero_le bound)

theorem Costs.attempts {turn : Program Call Reply (Option α)} {bound : Nat} (body : Costs cost turn bound) (n : Nat) :
    Costs cost (attempts turn n) (n * bound) := by
  induction n with
  | zero => exact (costs_done none).mono (Nat.zero_le _)
  | succ n ih =>
    rw [Nat.succ_mul]
    refine Costs.bind body (Nat.le_add_left _ _) ?_
    rw [Nat.add_sub_cancel]
    intro result
    cases result with
    | none => exact ih
    | some value => exact (costs_done _).mono (Nat.zero_le _)

theorem Costs.each {body : ι → Program Call Reply Unit} {bound : Nat} (turn : ∀ i, Costs cost (body i) bound)
    (items : List ι) : Costs cost (each body items) (items.length * bound) := by
  induction items with
  | nil => exact (costs_done ()).mono (Nat.zero_le _)
  | cons i rest ih =>
    rw [List.length_cons,Nat.succ_mul]
    refine Costs.bind (turn i) (Nat.le_add_left _ _) (fun _ => ?_)
    rw [Nat.add_sub_cancel]
    exact ih

end Costs

end Abtrda3.Semantics.Interaction
