import Abtrda3.AfxdpTransmit
import Mathlib.Algebra.Group.Nat.Defs

/-! The counter of outstanding transmits. `commit` counts a descriptor when it submits it
and `completeTx` takes off the completions it reaps; in between every descriptor is in one
of four places: the transmit ring, the driver, finished in the driver, or the completion
ring. The counter has 32 bits, and two rings of `2^31` entries hold one descriptor more
than it can count. -/
namespace Abtrda3.AfxdpOutstanding
open Abtrda3.Semantics Abtrda3.Semantics.Machine Abtrda3.Afxdp

inductive Call
  | needsWakeup
  | kickTx
  | peek
  | release (count : Nat)
  deriving DecidableEq, Repr

def Call.reaped : Call → Nat
  | .release count => count
  | _ => 0

structure State where
  backend : AfxdpTransmit.State
  calls : List Call

def reaped (s : State) : Nat := (s.calls.map Call.reaped).sum

def start (p : Params) : State := ⟨AfxdpTransmit.start p,[]⟩

/-- The kernel has set XDP_RING_NEED_WAKEUP if `flagged`. -/
def kickTest (needWakeup flagged : Bool) : List Call :=
  if needWakeup then .needsWakeup :: (if flagged then [.kickTx] else []) else [.kickTx]

/-- The producer index is read again only when no cached entry is left. -/
def available (s : AfxdpTransmit.State) : Nat := if s.compSeen = 0 then s.comp.items.length else s.compSeen

def peek (s : AfxdpTransmit.State) : Nat := min (available s) batchSize

def completeTx (needWakeup flagged : Bool) (s : AfxdpTransmit.State) : AfxdpTransmit.State × List Call :=
  if s.outstandingTx = 0 then (s,[])
  else
    let rcvd := peek s
    let asked := kickTest needWakeup flagged ++ [.peek]
    if rcvd ≠ 0 then
      ({s with comp := s.comp.drop rcvd, compSeen := available s - rcvd,
               outstandingTx := s.outstandingTx - BitVec.ofNat 32 rcvd},asked ++ [.release rcvd])
    else (s,asked)

/-- A `commit` without an `acquire` before it submits the pending frame once more. -/
def step (p : Params) (needWakeup : Bool) (s : State) : AfxdpTransmit.Event × Bool → Option State
  | (.commit,_) =>
    if s.backend.pc = .idle ∨ s.backend.pc = .acquired then some {s with backend := {s.backend with pc := .reserving}}
    else none
  | (.completeTx,flagged) =>
    let (backend,asked) := completeTx needWakeup flagged s.backend
    if s.backend.pc = .retrying then some ⟨{backend with pc := .reserving},s.calls ++ asked⟩
    else if s.backend.pc = .completing then some ⟨{backend with pc := .idle},s.calls ++ asked⟩
    else none
  | (event,_) => (AfxdpTransmit.step p s.backend event).map fun backend => {s with backend := backend}

def places (s : AfxdpTransmit.State) : Nat :=
  s.tx.items.length + (s.driver.length + s.finished.length + s.comp.items.length)

variable {p : Params} {needWakeup flagged : Bool}

theorem peek_eq_zero_iff (s : AfxdpTransmit.State) : peek s = 0 ↔ available s = 0 := by
  have batch : 0 < batchSize := by decide
  unfold peek
  omega

private theorem compSeen_of_peek_zero {s : AfxdpTransmit.State} (none : peek s = 0) : s.compSeen = 0 := by
  by_contra cached
  have nothing := (peek_eq_zero_iff s).mp none
  rw [available,if_neg cached] at nothing
  exact cached nothing

private theorem completeTx_fst (needWakeup flagged : Bool) (s : AfxdpTransmit.State) :
    (completeTx needWakeup flagged s).1 = AfxdpTransmit.completeTx s := by
  change _ = if s.outstandingTx = 0 then s else
    {s with comp := s.comp.drop (peek s), compSeen := available s - peek s,
            outstandingTx := s.outstandingTx - BitVec.ofNat 32 (peek s)}
  unfold completeTx
  split
  · rfl
  · dsimp only
    split
    · rfl
    next none =>
      have none : peek s = 0 := Decidable.not_not.mp none
      have unseen := compSeen_of_peek_zero none
      rw [(peek_eq_zero_iff s).mp none,none,BitVec.sub_zero]
      change s = {s with compSeen := 0}
      rw [← unseen]

theorem step_backend {s t : State} {event : AfxdpTransmit.Event}
    (moved : step p needWakeup s (event,flagged) = some t) (ready : event = .commit → s.backend.pc = .acquired) :
    AfxdpTransmit.step p s.backend event = some t.backend := by
  cases event with
  | commit =>
    have acquired := ready rfl
    simp only [step,acquired,or_true,if_true,Option.some.injEq] at moved
    cases moved
    simp only [AfxdpTransmit.step,acquired,if_true]
  | completeTx =>
    simp only [step] at moved
    simp only [AfxdpTransmit.step,← completeTx_fst needWakeup flagged]
    split at moved
    next retrying =>
      cases moved
      rw [if_pos retrying]
    next other =>
      rw [if_neg other]
      obtain ⟨completing,same⟩ := Option.ite_none_right_eq_some.mp moved
      cases same
      rw [if_pos completing]
  | _ =>
    obtain ⟨backend,ran,same⟩ := Option.map_eq_some_iff.mp moved
    cases same
    exact ran

def Acquired (s : State) (input : AfxdpTransmit.Event × Bool) : Prop := input.1 = .commit → s.backend.pc = .acquired

private theorem run_backend {s t : State} {inputs : List (AfxdpTransmit.Event × Bool)}
    (ran : run (step p needWakeup) s inputs = some t) (ready : Along (step p needWakeup) Acquired s inputs) :
    run (AfxdpTransmit.step p) s.backend (inputs.map Prod.fst) = some t.backend := by
  induction inputs generalizing s with
  | nil =>
    cases ran
    rfl
  | cons input rest ih =>
    obtain ⟨next,moved,later⟩ := run_cons_some ran
    rw [List.map_cons,run_cons,step_backend moved ready.1]
    exact ih later (ready.2 next moved)

structure Conserved (p : Params) (s : State) : Prop where
  account : s.backend.committed = reaped s + places s.backend
  counter : s.backend.outstandingTx = BitVec.ofNat 32 (places s.backend)
  seen : s.backend.compSeen ≤ s.backend.comp.items.length
  txCapacity : s.backend.tx.capacity = p.txSize
  compCapacity : s.backend.comp.capacity = p.compSize
  reserved : s.backend.driver.length + s.backend.finished.length + s.backend.comp.items.length ≤ p.compSize
  waiting : s.backend.pc = .retrying → p.txSize ≤ places s.backend

private theorem start_conserved (p : Params) : Conserved p (start p) where
  account := rfl
  counter := rfl
  seen := Nat.le_refl 0
  txCapacity := rfl
  compCapacity := rfl
  reserved := Nat.zero_le _
  waiting := fun waits => nomatch waits

variable {s : State}

theorem Conserved.peek_le (inv : Conserved p s) : peek s.backend ≤ s.backend.comp.items.length := by
  have seen := inv.seen
  unfold peek available
  split
  · exact Nat.min_le_left _ _
  · exact (Nat.min_le_left _ _).trans seen

structure Kernel (s t : AfxdpTransmit.State) : Prop where
  pc : t.pc = s.pc
  committed : t.committed = s.committed
  counter : t.outstandingTx = s.outstandingTx
  seen : t.compSeen = s.compSeen
  txCapacity : t.tx.capacity = s.tx.capacity
  compCapacity : t.comp.capacity = s.comp.capacity
  posted : s.comp.items.length ≤ t.comp.items.length
  places : places t = places s
  reserved : t.driver.length + t.finished.length + t.comp.items.length ≤
    max (s.driver.length + s.finished.length + s.comp.items.length) s.comp.capacity

private theorem take_kernel {s t : AfxdpTransmit.State} (moved : AfxdpTransmit.take s = some t) : Kernel s t := by
  obtain ⟨first,front,rest⟩ := Option.bind_eq_some_iff.mp moved
  obtain ⟨later,items⟩ : ∃ later, s.tx.items = first :: later := List.head?_eq_some_iff.mp front
  obtain ⟨room,same⟩ := Option.ite_none_right_eq_some.mp rest
  cases same
  refine ⟨rfl,rfl,rfl,rfl,rfl,rfl,Nat.le_refl _,?_,?_⟩
  · simp only [places,BoundedQueue.pop_items,items,List.tail_cons,List.length_cons,List.length_append,List.length_nil]
    omega
  · simp only [List.length_append,List.length_cons,List.length_nil]
    omega

private theorem finish_kernel {s t : AfxdpTransmit.State} {position : Nat}
    (moved : AfxdpTransmit.finish s position = some t) :
    Kernel s t := by
  obtain ⟨done,found,rfl⟩ := Option.map_eq_some_iff.mp moved
  have inside := (List.getElem?_eq_some_iff.mp found).1
  have fewer : (s.driver.eraseIdx position).length + 1 = s.driver.length := by
    rw [List.length_eraseIdx_of_lt inside]
    omega
  refine ⟨rfl,rfl,rfl,rfl,rfl,rfl,Nat.le_refl _,?_,?_⟩
  · simp only [places,List.length_append,List.length_cons,List.length_nil]
    omega
  · simp only [List.length_append,List.length_cons,List.length_nil]
    omega

private theorem post_kernel {s t : AfxdpTransmit.State} {position : Nat} (moved : AfxdpTransmit.post s position = some t) :
    Kernel s t := by
  obtain ⟨done,found,rest⟩ := Option.bind_eq_some_iff.mp moved
  obtain ⟨comp,room,rfl⟩ := Option.map_eq_some_iff.mp rest
  have inside := (List.getElem?_eq_some_iff.mp found).1
  have fewer : (s.finished.eraseIdx position).length + 1 = s.finished.length := by
    rw [List.length_eraseIdx_of_lt inside]
    omega
  obtain ⟨items,capacity⟩ := BoundedQueue.tryPush_some room
  have more : comp.items.length = s.comp.items.length + 1 := by
    rw [items,List.length_append]
    rfl
  refine ⟨rfl,rfl,rfl,rfl,rfl,capacity,?_,?_,?_⟩
  · dsimp only
    omega
  · simp only [places]
    omega
  · dsimp only
    omega

theorem Conserved.kernel {backend : AfxdpTransmit.State} (inv : Conserved p s)
    (moved : Kernel s.backend backend) : Conserved p {s with backend := backend} where
  account := by
    rw [moved.places,moved.committed]
    exact inv.account
  counter := by
    rw [moved.places,moved.counter]
    exact inv.counter
  seen := by
    rw [moved.seen]
    exact inv.seen.trans moved.posted
  txCapacity := moved.txCapacity.trans inv.txCapacity
  compCapacity := moved.compCapacity.trans inv.compCapacity
  reserved := by
    have before := inv.reserved
    have now := moved.reserved
    rw [inv.compCapacity,Nat.max_eq_right before] at now
    exact now
  waiting := by
    rw [moved.pc,moved.places]
    exact inv.waiting

theorem Conserved.reserve (inv : Conserved p s) :
    Conserved p {s with backend := AfxdpTransmit.reserve p s.backend} := by
  have account := inv.account
  obtain ⟨_,counter,seen,txCapacity,compCapacity,reserved,_⟩ := inv
  unfold AfxdpTransmit.reserve
  split
  next tx room =>
    obtain ⟨items,capacity⟩ := BoundedQueue.tryPush_some room
    have more : tx.items.length = s.backend.tx.items.length + 1 := by
      rw [items,List.length_append]
      rfl
    have grown : places {s.backend with tx := tx} = places s.backend + 1 := by
      simp only [places]
      omega
    refine ⟨?_,?_,seen,capacity.trans txCapacity,compCapacity,reserved,fun waits => nomatch waits⟩
    · change s.backend.committed + 1 = reaped s + places {s.backend with tx := tx}
      omega
    · change s.backend.outstandingTx + 1 = BitVec.ofNat 32 (places {s.backend with tx := tx})
      rw [counter,grown,WrappingCounter.ofNat_succ]
  next refused =>
    have full := BoundedQueue.tryPush_none refused
    refine ⟨account,counter,seen,txCapacity,compCapacity,reserved,fun _ => ?_⟩
    rw [← txCapacity,← full]
    exact Nat.le_add_right _ _

theorem reaped_append (backend : AfxdpTransmit.State) (before asked : List Call) :
    reaped ⟨backend,before ++ asked⟩ = (before.map Call.reaped).sum + (asked.map Call.reaped).sum := by
  rw [reaped,List.map_append,List.sum_append]

theorem reaped_kickTest (needWakeup flagged : Bool) :
    ((kickTest needWakeup flagged ++ [Call.peek]).map Call.reaped).sum = 0 := by
  cases needWakeup with
  | false => rfl
  | true =>
    cases flagged with
    | false => rfl
    | true => rfl

theorem Conserved.completeTx (inv : Conserved p s) (needWakeup flagged : Bool) {pc : AfxdpTransmit.Pc}
    (leaves : pc ≠ .retrying) :
    Conserved p ⟨{(completeTx needWakeup flagged s.backend).1 with pc := pc},
      s.calls ++ (completeTx needWakeup flagged s.backend).2⟩ := by
  have account := inv.account
  have some := inv.peek_le
  obtain ⟨_,counter,seen,txCapacity,compCapacity,reserved,_⟩ := inv
  unfold AfxdpOutstanding.completeTx
  split
  · rw [List.append_nil]
    exact ⟨account,counter,seen,txCapacity,compCapacity,reserved,fun waits => absurd waits leaves⟩
  · dsimp only
    split
    · -- The completions that leave the ring are those the counter goes down by.
      have fewer : (s.backend.comp.drop (peek s.backend)).items.length = s.backend.comp.items.length - peek s.backend :=
        List.length_drop
      have left : places {s.backend with comp := s.backend.comp.drop (peek s.backend)} =
          places s.backend - peek s.backend := by
        simp only [places]
        omega
      have within : peek s.backend ≤ places s.backend := by
        simp only [places]
        omega
      have cached : available s.backend ≤ s.backend.comp.items.length := by
        unfold available
        split
        · exact Nat.le_refl _
        · exact seen
      refine ⟨?_,?_,?_,txCapacity,compCapacity,?_,fun waits => absurd waits leaves⟩
      · rw [reaped_append,List.map_append,List.sum_append,reaped_kickTest]
        change s.backend.committed = reaped s + (0 + (peek s.backend + 0)) +
          places {s.backend with comp := s.backend.comp.drop (peek s.backend)}
        omega
      · change s.backend.outstandingTx - _ =
          BitVec.ofNat 32 (places {s.backend with comp := s.backend.comp.drop (peek s.backend)})
        rw [left,counter,WrappingCounter.sub_ofNat 32 within]
      · dsimp only
        omega
      · dsimp only
        omega
    · refine ⟨?_,counter,seen,txCapacity,compCapacity,reserved,fun waits => absurd waits leaves⟩
      rw [reaped_append,reaped_kickTest]
      exact account

theorem Conserved.step {s t : State} {input : AfxdpTransmit.Event × Bool} (inv : Conserved p s)
    (moved : step p needWakeup s input = some t) : Conserved p t := by
  obtain ⟨event,flagged⟩ := input
  cases event with
  | commit =>
    obtain ⟨_,same⟩ := Option.ite_none_right_eq_some.mp moved
    cases same
    exact {inv with waiting := fun waits => nomatch waits}
  | completeTx =>
    simp only [AfxdpOutstanding.step] at moved
    split at moved
    · cases moved
      exact inv.completeTx needWakeup flagged (by decide)
    · obtain ⟨_,same⟩ := Option.ite_none_right_eq_some.mp moved
      cases same
      exact inv.completeTx needWakeup flagged (by decide)
  | acquire frameLen =>
    obtain ⟨_,ran,rfl⟩ := Option.map_eq_some_iff.mp moved
    obtain ⟨_,same⟩ := Option.ite_none_right_eq_some.mp ran
    cases same
    exact {inv with waiting := fun waits => nomatch waits}
  | reserve =>
    obtain ⟨_,ran,rfl⟩ := Option.map_eq_some_iff.mp moved
    obtain ⟨_,same⟩ := Option.ite_none_right_eq_some.mp ran
    cases same
    exact inv.reserve
  | take =>
    obtain ⟨_,ran,rfl⟩ := Option.map_eq_some_iff.mp moved
    exact inv.kernel (take_kernel ran)
  | finish position =>
    obtain ⟨_,ran,rfl⟩ := Option.map_eq_some_iff.mp moved
    exact inv.kernel (finish_kernel ran)
  | post position =>
    obtain ⟨_,ran,rfl⟩ := Option.map_eq_some_iff.mp moved
    exact inv.kernel (post_kernel ran)

private theorem conserved_of_run {inputs : List (AfxdpTransmit.Event × Bool)}
    (ran : run (step p needWakeup) (start p) inputs = some s) : Conserved p s :=
  reachable_invariant (Conserved p) (fun _ _ _ inv moved => inv.step moved) (start_conserved p) ran

theorem Conserved.places_le (inv : Conserved p s) : places s.backend ≤ p.txSize + p.compSize :=
  Nat.add_le_add (inv.txCapacity ▸ s.backend.tx.bounded) inv.reserved

private theorem completeTx_asks {s : AfxdpTransmit.State} (counted : s.outstandingTx ≠ 0) (needWakeup flagged : Bool) :
    ∃ rest, (completeTx needWakeup flagged s).2 = kickTest needWakeup flagged ++ .peek :: rest ∧
      ∀ count, .release count ∈ (completeTx needWakeup flagged s).2 → count = peek s := by
  have tested (count : Nat) : .release count ∉ kickTest needWakeup flagged ++ [.peek] := by
    unfold kickTest
    split
    · split
      · simp
      · simp
    · simp
  unfold completeTx
  rw [if_neg counted]
  dsimp only
  split
  · refine ⟨[.release (peek s)],List.append_assoc _ _ _,fun count member => ?_⟩
    rcases List.mem_append.mp member with before | last
    · exact absurd before (tested count)
    · exact Call.release.inj (List.mem_singleton.mp last)
  · exact ⟨[],rfl,fun count member => absurd member (tested count)⟩

/-- With rings of fewer than `2^31` entries, and with larger ones while fewer than `2^32`
descriptors are outstanding, the counter is the number of descriptors submitted and not
reaped, `completeTx` never takes off more than it holds, and a `commit` that waits for the
ring finds it nonzero, so every turn of its loop tests for a kick and peeks. A run in which
each `commit` follows its `acquire` is a run of the transmit model. -/
theorem outstandingTx_exact {s : State} {inputs : List (AfxdpTransmit.Event × Bool)}
    (ran : run (step p needWakeup) (start p) inputs = some s)
    (countable : p.numTxFrames < 2^31 ∨ s.backend.committed - reaped s < 2^32) :
    reaped s ≤ s.backend.committed ∧ s.backend.outstandingTx.toNat = s.backend.committed - reaped s ∧
      s.backend.outstandingTx.toNat ≤ p.txSize + p.compSize ∧
      (∀ flagged count, .release count ∈ (completeTx needWakeup flagged s.backend).2 →
        count ≤ s.backend.outstandingTx.toNat) ∧
      (s.backend.pc = .retrying → s.backend.outstandingTx ≠ 0 ∧
        ∀ flagged, ∃ rest, (completeTx needWakeup flagged s.backend).2 = kickTest needWakeup flagged ++ .peek :: rest) ∧
      (Along (step p needWakeup) Acquired (start p) inputs →
        run (AfxdpTransmit.step p) (AfxdpTransmit.start p) (inputs.map Prod.fst) = some s.backend) := by
  have inv := conserved_of_run ran
  have account := inv.account
  have bound := inv.places_le
  have fits : places s.backend < 2^32 := by
    rcases countable with small | few
    · simp only [Params.txSize,Params.compSize] at bound
      omega
    · omega
  have value : s.backend.outstandingTx.toNat = places s.backend := by
    rw [inv.counter,WrappingCounter.ofNat_toNat_mod,Nat.mod_eq_of_lt fits]
  refine ⟨by omega,by omega,value ▸ bound,?_,?_,run_backend ran⟩
  · intro flagged count released
    by_cases counted : s.backend.outstandingTx = 0
    · simp only [completeTx,if_pos counted] at released
      cases released
    · obtain ⟨_,_,only⟩ := completeTx_asks counted needWakeup flagged
      have within := inv.peek_le
      rw [only count released,value,places]
      omega
  · intro waits
    have counted : s.backend.outstandingTx ≠ 0 := by
      intro zero
      have full := inv.waiting waits
      have entries : 0 < p.txSize := Nat.two_pow_pos p.txBits
      rw [zero] at value
      have none : places s.backend = 0 := value.symm
      omega
    refine ⟨counted,fun flagged => ?_⟩
    obtain ⟨rest,asked,_⟩ := completeTx_asks counted needWakeup flagged
    exact ⟨rest,asked⟩

def submit : List (AfxdpTransmit.Event × Bool) :=
  [(.acquire 64,false),(.commit,false),(.reserve,false),(.completeTx,true)]

def blocked : List (AfxdpTransmit.Event × Bool) := [(.acquire 64,false),(.commit,false),(.reserve,false)]

theorem outstandingTx_exact_full :
    ∃ s, run (step AfxdpTransmit.eightFrames true) (start AfxdpTransmit.eightFrames)
        ((List.replicate 8 submit).flatten ++ blocked) = some s ∧ s.backend.pc = .retrying ∧
      s.backend.outstandingTx.toNat = s.backend.committed - reaped s ∧
      ∃ rest, (completeTx true true s.backend).2 = [.needsWakeup,.kickTx,.peek] ++ rest := by
  have shown : (run (step AfxdpTransmit.eightFrames true) (start AfxdpTransmit.eightFrames)
      ((List.replicate 8 submit).flatten ++ blocked)).map (fun s => s.backend.pc) = some .retrying := by decide +kernel
  obtain ⟨s,ran,waits⟩ := Option.map_eq_some_iff.mp shown
  obtain ⟨_,counted,_,_,waiting,_⟩ := outstandingTx_exact ran (.inl (by decide))
  exact ⟨s,ran,waits,counted,(waiting waits).2 true⟩

structure Loaded (p : Params) (queued taken : Nat) (s : State) : Prop where
  inv : Conserved p s
  idle : s.backend.pc = .idle
  queued : s.backend.tx.items.length = queued
  taken : s.backend.driver.length = taken
  finished : s.backend.finished = []
  none : s.backend.comp.items = []
  reaped : reaped s = 0

theorem Loaded.places {queued taken : Nat} (loaded : Loaded p queued taken s) :
    places s.backend = queued + taken := by
  rw [AfxdpOutstanding.places,loaded.queued,loaded.taken,loaded.finished,loaded.none]
  rfl

private theorem completeTx_empty {s : AfxdpTransmit.State} (none : peek s = 0) (needWakeup flagged : Bool) :
    ∃ asked, completeTx needWakeup flagged s = (s,asked) ∧ (asked.map Call.reaped).sum = 0 := by
  unfold completeTx
  split
  · exact ⟨[],rfl,rfl⟩
  · dsimp only
    rw [if_neg (not_not.mpr none)]
    exact ⟨_,rfl,reaped_kickTest needWakeup flagged⟩

private theorem begin_commit (idle : s.backend.pc = .idle) :
    run (step p true) s [(.acquire 64,false),(.commit,false)] =
      some {s with backend := {AfxdpTransmit.acquire p s.backend 64 with pc := .reserving}} := by
  have acquired : step p true s (.acquire 64,false) = some {s with backend := AfxdpTransmit.acquire p s.backend 64} := by
    simp only [step,AfxdpTransmit.step,idle,true_or,if_true,Option.map_some]
  rw [run_cons,acquired]
  rfl

theorem Loaded.submit {queued taken : Nat} (loaded : Loaded p queued taken s) (room : queued < p.txSize) :
    ∃ t, run (step p true) s submit = some t ∧ Loaded p (queued + 1) taken t := by
  obtain ⟨inv,idle,items,driver,finished,none,unreaped⟩ := loaded
  cases pushed : s.backend.tx.tryPush ⟨frameAddr p s.backend.txFrameNb,64,0,s.backend.committed⟩ with
  | none =>
    have full := BoundedQueue.tryPush_none pushed
    rw [BoundedQueue.Full,items,inv.txCapacity] at full
    omega
  | some tx =>
    obtain ⟨more,_⟩ := BoundedQueue.tryPush_some pushed
    let sent : AfxdpTransmit.State :=
      {AfxdpTransmit.acquire p s.backend 64 with
        tx := tx, outstandingTx := s.backend.outstandingTx + 1,
        txFrameNb := (s.backend.txFrameNb + 1) &&& p.txPoolMask, committed := s.backend.committed + 1, pc := .completing}
    have reserved : step p true
        {s with backend := {AfxdpTransmit.acquire p s.backend 64 with pc := .reserving}} (.reserve,false) =
          some {s with backend := sent} := by
      simp only [step,AfxdpTransmit.step,AfxdpTransmit.reserve,AfxdpTransmit.acquire,if_true,pushed,Option.map_some]
      rfl
    have nothing : peek s.backend = 0 := by
      have below := inv.seen
      rw [none] at below
      rw [peek_eq_zero_iff,available,if_pos (Nat.le_zero.mp below)]
      exact congrArg List.length none
    obtain ⟨asked,completed,unchanged⟩ := completeTx_empty (s := sent) nothing true true
    have returned : step p true {s with backend := sent} (.completeTx,true) =
        some ⟨{sent with pc := .idle},s.calls ++ asked⟩ := by
      simp only [step,completed]
      rfl
    have ran : run (step p true) s AfxdpOutstanding.submit = some ⟨{sent with pc := .idle},s.calls ++ asked⟩ := by
      apply run_trans (begin_commit idle)
      rw [run_cons,reserved]
      exact run_singleton returned
    refine ⟨_,ran,?_,rfl,?_,driver,finished,none,?_⟩
    · exact reachable_invariant (Conserved p) (fun _ _ _ inv moved => inv.step moved) inv ran
    · change tx.items.length = queued + 1
      rw [more,List.length_append,items]
      rfl
    · rw [reaped_append,unchanged]
      exact unreaped

theorem Loaded.take {queued taken : Nat} (loaded : Loaded p (queued + 1) taken s)
    (room : taken < p.compSize) : ∃ t, step p true s (.take,false) = some t ∧ Loaded p queued (taken + 1) t := by
  obtain ⟨inv,idle,items,driver,finished,none,unreaped⟩ := loaded
  obtain ⟨first,later,front⟩ := List.exists_cons_of_length_eq_add_one items
  have free : s.backend.comp.items.length + s.backend.driver.length + s.backend.finished.length <
      s.backend.comp.capacity := by
    rw [none,driver,finished,inv.compCapacity]
    simpa using room
  have taken : step p true s (.take,false) =
      some {s with backend := {s.backend with tx := s.backend.tx.pop, driver := s.backend.driver ++ [first]}} := by
    simp only [step,AfxdpTransmit.step,AfxdpTransmit.take,BoundedQueue.front,front,List.head?_cons,Option.bind_some,
      if_pos free,Option.map_some]
  refine ⟨_,taken,inv.step taken,idle,?_,?_,finished,none,unreaped⟩
  · simp only [BoundedQueue.pop_items,List.length_tail,items]
    rfl
  · simp only [List.length_append,driver]
    rfl

private theorem reach_taken (p : Params) {taken : Nat} (fits : taken ≤ p.compSize) :
    ∃ inputs s, run (step p true) (start p) inputs = some s ∧ Loaded p 0 taken s := by
  induction taken with
  | zero => exact ⟨[],start p,rfl,start_conserved p,rfl,rfl,rfl,rfl,rfl,rfl⟩
  | succ taken ih =>
    obtain ⟨inputs,s,ran,loaded⟩ := ih (Nat.le_of_succ_le fits)
    obtain ⟨middle,sent,queued⟩ := loaded.submit (Nat.two_pow_pos p.txBits)
    obtain ⟨t,taken,done⟩ := queued.take fits
    exact ⟨inputs ++ (submit ++ [(.take,false)]),t,run_trans ran (run_trans sent (run_singleton taken)),done⟩

private theorem reach_queued (p : Params) {queued : Nat} (fits : queued ≤ p.txSize) :
    ∃ inputs s, run (step p true) (start p) inputs = some s ∧ Loaded p queued p.compSize s := by
  induction queued with
  | zero => exact reach_taken p (Nat.le_refl _)
  | succ queued ih =>
    obtain ⟨inputs,s,ran,loaded⟩ := ih (Nat.le_of_succ_le fits)
    obtain ⟨t,sent,done⟩ := loaded.submit fits
    exact ⟨inputs ++ submit,t,run_trans ran sent,done⟩

def largestRing : Params := {AfxdpTransmit.eightFrames with txBits := 31, txSized := fun _ => ⟨by decide,by decide⟩}

/-- Both rings of `2^31` entries full: the counter is back at zero, and the waiting `commit`
neither kicks nor reaps. -/
theorem full_rings_wrap_outstandingTx :
    ∃ inputs s, run (step largestRing true) (start largestRing) inputs = some s ∧ s.backend.pc = .retrying ∧
      s.backend.committed - reaped s = 2^32 ∧ s.backend.outstandingTx = 0 ∧
      (completeTx true true s.backend).2 = [] := by
  obtain ⟨inputs,s,ran,loaded⟩ := reach_queued largestRing (Nat.le_refl _)
  have full : places s.backend = 2^32 := loaded.places
  have account := loaded.inv.account
  have zero : s.backend.outstandingTx = 0 := by
    rw [loaded.inv.counter,full]
    rfl
  have refused : s.backend.tx.tryPush ⟨frameAddr largestRing s.backend.txFrameNb,64,0,s.backend.committed⟩ = none := by
    unfold BoundedQueue.tryPush
    rw [dif_neg]
    rw [loaded.queued,loaded.inv.txCapacity]
    exact Nat.lt_irrefl _
  have waits : step largestRing true
      {s with backend := {AfxdpTransmit.acquire largestRing s.backend 64 with pc := .reserving}} (.reserve,false) =
        some {s with backend := {AfxdpTransmit.acquire largestRing s.backend 64 with pc := .retrying}} := by
    simp only [step,AfxdpTransmit.step,AfxdpTransmit.reserve,AfxdpTransmit.acquire,if_true,refused,Option.map_some]
  refine ⟨_,_,run_trans ran (run_trans (begin_commit loaded.idle) (run_singleton waits)),rfl,?_,zero,?_⟩
  · change s.backend.committed - reaped s = 2^32
    omega
  · unfold completeTx
    rw [if_pos]
    exact zero

end Abtrda3.AfxdpOutstanding
