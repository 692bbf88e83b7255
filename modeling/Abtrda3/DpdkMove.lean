import Abtrda3.DpdkReceive

/-! Moving a DPDK port into another object. Both moves carry every member but the burst
array with its count and index and the two pending mbufs, which stay with the source or
keep the target's values. Two objects that differ in those members alone show the same
frames and frees as long as both queues are empty and no buffer is acquired. -/
namespace Abtrda3.DpdkMove
open Abtrda3.Semantics Abtrda3.Semantics.Machine Abtrda3.Dpdk Abtrda3.DpdkReceive

def patch (o : Port) (rxBurst : List Mbuf) (rxCount rxIdx : BitVec 16) (pendingRx pendingTx : Option Mbuf) : Port :=
  {o with rxBurst := rxBurst, rxCount := rxCount, rxIdx := rxIdx, pendingRx := pendingRx, pendingTx := pendingTx}

theorem moveConstruct_eq (o : Port) : moveConstruct o = patch o [] 0 0 none none := rfl

theorem moveAssign_eq (target : Port) (w : World) (o : Port) :
    (moveAssign target w o).1 =
      patch o target.rxBurst target.rxCount target.rxIdx (shutdown target w).1.pendingRx target.pendingTx := by
  cases running : target.started with
  | false =>
    rw [moveAssign,shutdown_stopped w running]
    rfl
  | true =>
    rw [moveAssign,shutdown_running w running]
    rfl

/-- The source is never the one to free anything after a move. -/
theorem shutdown_movedFrom (o : Port) (w : World) : shutdown (movedFrom o) w = (movedFrom o,w,[]) := rfl

/-- The pool's name stays taken, so a port that was shut down is not started again. -/
def CanRun (o : Port) : Prop := o.started = true ∨ o.pool = none

/-- The object differs from the one of the state only where no caller can tell. -/
inductive Alike (p : Params) (s : State) : Port → Prop
  | mk (rxBurst : List Mbuf) (rxCount rxIdx : BitVec 16) (pendingRx pendingTx : Option Mbuf)
      (hidden : CanRun s.obj → pendingRx = s.obj.pendingRx ∧
        Filled p (patch s.obj rxBurst rxCount rxIdx pendingRx pendingTx) ∧
        undelivered (patch s.obj rxBurst rxCount rxIdx pendingRx pendingTx) = undelivered s.obj ∧
        (s.granted ≠ none → pendingTx = s.obj.pendingTx)) :
      Alike p s (patch s.obj rxBurst rxCount rxIdx pendingRx pendingTx)

section
variable {p : Params} {s : State}

private theorem acquire_patch (o : Port) (w : World) (frameLen : BitVec 32) (allocated : Option Mbuf)
    (rxBurst : List Mbuf) (rxCount rxIdx : BitVec 16) (pendingRx pendingTx : Option Mbuf) :
    ∃ tx, acquire (patch o rxBurst rxCount rxIdx pendingRx pendingTx) w frameLen allocated =
        (patch (acquire o w frameLen allocated).1 rxBurst rxCount rxIdx pendingRx tx,
          (acquire o w frameLen allocated).2) ∧
      ((acquire o w frameLen allocated).2.2 ≠ none → tx = (acquire o w frameLen allocated).1.pendingTx) := by
  rcases Decidable.em (o.txReuseInline ∧ frameLen ≤ inlineSafeLen) with inline | plain
  · have inlined : (patch o rxBurst rxCount rxIdx pendingRx pendingTx).txReuseInline ∧ frameLen ≤ inlineSafeLen := inline
    cases shared : o.txReuse with
    | some m =>
      have found : (patch o rxBurst rxCount rxIdx pendingRx pendingTx).txReuse = some m := shared
      rw [acquire_shared w allocated inline shared,acquire_shared w allocated inlined found]
      exact ⟨_,rfl,fun _ => rfl⟩
    | none =>
      have unset : (patch o rxBurst rxCount rxIdx pendingRx pendingTx).txReuse = none := shared
      cases allocated with
      | none =>
        rw [acquire_refused w inline shared,acquire_refused w inlined unset]
        exact ⟨pendingTx,rfl,fun given => absurd rfl given⟩
      | some m =>
        rw [acquire_first w m inline shared,acquire_first w m inlined unset]
        exact ⟨_,rfl,fun _ => rfl⟩
  · have separate : ¬((patch o rxBurst rxCount rxIdx pendingRx pendingTx).txReuseInline ∧ frameLen ≤ inlineSafeLen) :=
      plain
    cases allocated with
    | none =>
      rw [acquire_failed w plain,acquire_failed w separate]
      exact ⟨_,rfl,fun _ => rfl⟩
    | some m =>
      rw [acquire_fresh w m plain,acquire_fresh w m separate]
      exact ⟨_,rfl,fun _ => rfl⟩

variable {o : Port}

private theorem shutdown_patch (w : World) (running : o.started = true) (rxBurst : List Mbuf)
    (rxCount rxIdx : BitVec 16) (pendingTx : Option Mbuf) :
    shutdown (patch o rxBurst rxCount rxIdx o.pendingRx pendingTx) w =
      (patch (shutdown o w).1 rxBurst rxCount rxIdx none pendingTx,(shutdown o w).2) := by
  cases shared : o.txReuse <;> simp [shutdown,patch,running,shared]

private theorem alike_tryReceive (fits : Fits p s) (running : s.obj.started = true) (alike : Alike p s o)
    (ready : Nat) :
    ∃ o', tryReceive p o s.world ready = (o',(tryReceive p s.obj s.world ready).2) ∧
      o'.pendingRx = (tryReceive p s.obj s.world ready).1.pendingRx ∧
      ∀ t : State, t.obj = (tryReceive p s.obj s.world ready).1 → t.granted = s.granted → Alike p t o' := by
  obtain ⟨rxBurst,rxCount,rxIdx,pendingRx,pendingTx,hidden⟩ := alike
  obtain ⟨rfl,filled,queue,tx⟩ := hidden (.inl running)
  cases left : undelivered s.obj with
  | nil =>
    have empty := queue.trans left
    rw [tryReceive_polls s.world ready fits.filled left,tryReceive_polls s.world ready filled empty]
    refine ⟨_,rfl,rfl,fun t same given => ?_⟩
    have full := filled_polled p (patch s.obj rxBurst rxCount rxIdx s.obj.pendingRx pendingTx) s.world ready
      (rxBurst.drop (rxTaken p s.obj s.world ready).length)
    have count := rxTaken_count p s.obj s.world ready
    obtain ⟨o,w,held,granted,inFlight,log⟩ := t
    cases same
    refine .mk _ _ _ _ pendingTx fun _ => ⟨rfl,full,?_,fun some => tx (given ▸ some)⟩
    have renewed := undelivered_polled (patch s.obj rxBurst rxCount rxIdx s.obj.pendingRx pendingTx)
      (rxTaken p s.obj s.world ready) (rxBurst.drop (rxTaken p s.obj s.world ready).length)
      (rxTaken p s.obj s.world ready).head? count
    exact renewed.trans (undelivered_polled s.obj _ _ _ count).symm
  | cons m rest =>
    have more := queue.trans left
    rw [tryReceive_repeats s.world ready fits.filled left,tryReceive_repeats s.world ready filled more]
    refine ⟨_,rfl,rfl,fun t same given => ?_⟩
    have full := filled_repeated filled more
    obtain ⟨o,w,held,granted,inFlight,log⟩ := t
    cases same
    exact .mk _ _ _ _ pendingTx fun _ => ⟨rfl,full,queue,fun some => tx (given ▸ some)⟩

private theorem alike_release (fits : Fits p s) (running : s.obj.started = true) (holding : s.held ≠ none)
    (alike : Alike p s o) :
    ∃ o', release o s.world = (o',(release s.obj s.world).2) ∧
      ∀ t : State, t.obj = (release s.obj s.world).1 → t.granted = s.granted → Alike p t o' := by
  obtain ⟨rxBurst,rxCount,rxIdx,pendingRx,pendingTx,hidden⟩ := alike
  obtain ⟨rfl,filled,queue,tx⟩ := hidden (.inl running)
  obtain ⟨m,waits⟩ := Option.ne_none_iff_exists'.mp (fits.handed running ▸ holding)
  obtain ⟨rest,left⟩ := pending_cases fits.filled waits
  refine ⟨_,rfl,fun t same given => ?_⟩
  have full := filled_release s.world filled
  have shorter := (undelivered_release s.world filled (queue.trans left)).trans
    (undelivered_release s.world fits.filled left).symm
  obtain ⟨o,w,held,granted,inFlight,log⟩ := t
  cases same
  exact .mk _ _ _ _ pendingTx fun _ => ⟨rfl,full,shorter,fun some => tx (given ▸ some)⟩

theorem alike_keep (alike : Alike p s o) (t : State) (change : Port → Port) (moved : t.obj = change s.obj)
    (commutes : ∀ rxBurst rxCount rxIdx pendingRx pendingTx,
      change (patch s.obj rxBurst rxCount rxIdx pendingRx pendingTx) =
        patch (change s.obj) rxBurst rxCount rxIdx pendingRx pendingTx)
    (kept : change s.obj = patch (change s.obj) s.obj.rxBurst s.obj.rxCount s.obj.rxIdx s.obj.pendingRx s.obj.pendingTx)
    (live : CanRun (change s.obj) → CanRun s.obj) (given : t.granted = s.granted) : Alike p t (change o) := by
  obtain ⟨rxBurst,rxCount,rxIdx,pendingRx,pendingTx,hidden⟩ := alike
  obtain ⟨obj,w,held,granted,inFlight,log⟩ := t
  cases moved
  rw [commutes]
  refine .mk _ _ _ _ _ fun runs => ?_
  obtain ⟨rfl,filled,queue,tx⟩ := hidden (live runs)
  refine ⟨by rw [kept]; rfl,filled_congr filled rfl rfl rfl (.inl rfl),?_,fun some => ?_⟩
  · refine (undelivered_congr rfl rfl rfl).trans (queue.trans ?_)
    rw [kept]
    exact undelivered_congr rfl rfl rfl
  · rw [kept]
    exact tx (given ▸ some)

theorem alike_same (alike : Alike p s o) (t : State) (kept : t.obj = s.obj) (given : t.granted = s.granted) :
    Alike p t o :=
  alike_keep alike t id kept (fun _ _ _ _ _ => rfl) rfl id given

private theorem alike_acquire (running : s.obj.started = true) (alike : Alike p s o) (frameLen : BitVec 32)
    (allocated : Option Mbuf) :
    ∃ o', acquire o s.world frameLen allocated = (o',(acquire s.obj s.world frameLen allocated).2) ∧
      ∀ t : State, t.obj = (acquire s.obj s.world frameLen allocated).1 →
        t.granted = (acquire s.obj s.world frameLen allocated).2.2 → Alike p t o' := by
  obtain ⟨rxBurst,rxCount,rxIdx,pendingRx,pendingTx,hidden⟩ := alike
  obtain ⟨rfl,filled,queue,-⟩ := hidden (.inl running)
  obtain ⟨tx,same,grants⟩ := acquire_patch s.obj s.world frameLen allocated rxBurst rxCount rxIdx s.obj.pendingRx pendingTx
  obtain ⟨pendingTx',txReuse',moved,-⟩ := acquire_obj s.obj s.world frameLen allocated
  refine ⟨_,same,fun t here given => ?_⟩
  obtain ⟨o,w,held,granted,inFlight,log⟩ := t
  cases here
  cases given
  have pending := congrArg Port.pendingRx moved
  have waiting := congrArg undelivered moved
  exact .mk _ _ _ _ _ fun _ =>
    ⟨pending.symm,filled_congr filled rfl rfl rfl (.inl rfl),queue.trans waiting.symm,grants⟩

private theorem alike_shutdown (alike : Alike p s o) :
    ∃ o', shutdown o s.world = (o',(shutdown s.obj s.world).2) ∧
      ∀ t : State, t.obj = (shutdown s.obj s.world).1 → t.granted = s.granted → Alike p t o' := by
  cases running : s.obj.started with
  | false =>
    have idle : o.started = false := by
      obtain ⟨rxBurst,rxCount,rxIdx,pendingRx,pendingTx,hidden⟩ := alike
      exact running
    rw [shutdown_stopped s.world running,shutdown_stopped s.world idle]
    exact ⟨o,rfl,fun t kept given => alike_same alike t kept given⟩
  | true =>
    obtain ⟨rxBurst,rxCount,rxIdx,pendingRx,pendingTx,hidden⟩ := alike
    obtain ⟨rfl,filled,queue,tx⟩ := hidden (.inl running)
    refine ⟨_,shutdown_patch s.world running rxBurst rxCount rxIdx pendingTx,fun t here given => ?_⟩
    obtain ⟨o,w,held,granted,inFlight,log⟩ := t
    cases here
    have closed := shutdown_running s.world running
    have pending := congrArg Port.pendingRx closed
    have waiting := congrArg undelivered closed
    have last := congrArg Port.pendingTx closed
    exact .mk rxBurst rxCount rxIdx none pendingTx fun _ =>
      ⟨pending.symm,filled_congr filled rfl rfl rfl (.inr rfl),queue.trans waiting.symm,
        fun some => (tx (given ▸ some)).trans last.symm⟩

private theorem alike_commit (running : s.obj.started = true) (given : s.granted ≠ none) (alike : Alike p s o) :
    o.pendingTx = s.obj.pendingTx ∧
      ∀ t : State, t.obj = {s.obj with pendingTx := none} → Alike p t {o with pendingTx := none} := by
  obtain ⟨rxBurst,rxCount,rxIdx,pendingRx,pendingTx,hidden⟩ := alike
  obtain ⟨rfl,filled,queue,tx⟩ := hidden (.inl running)
  refine ⟨tx given,fun t here => ?_⟩
  obtain ⟨o,w,held,granted,inFlight,log⟩ := t
  cases here
  exact .mk _ _ _ _ none fun _ => ⟨rfl,filled_congr filled rfl rfl rfl (.inl rfl),queue,fun _ => rfl⟩

private theorem alike_port (alike : Alike p s o) :
    o.started = s.obj.started ∧ o.pool = s.obj.pool ∧ o.port = s.obj.port := by
  obtain ⟨rxBurst,rxCount,rxIdx,pendingRx,pendingTx,hidden⟩ := alike
  exact ⟨rfl,rfl,rfl⟩

/-- Whatever the original answers to a call, the other object answers the same. -/
theorem alike_step {t : State} {call : Call} (fits : Fits p s) (alike : Alike p s o)
    (moved : step p s call = some t) :
    ∃ o', step p {s with obj := o} call = some {t with obj := o'} ∧ Alike p t o' := by
  obtain ⟨started,pool,port⟩ := alike_port alike
  cases step_action moved with
  | init halted unused =>
    refine ⟨_,(Action.init (s := {s with obj := o}) (started.trans halted) (pool.trans unused)).enabled,?_⟩
    exact alike_keep alike _ (fun o => {o with port := _, pool := _, prepared := true, started := true}) rfl
      (fun _ _ _ _ _ => rfl) rfl (fun _ => .inr unused) rfl
  | setTxInlineReuse halted =>
    refine ⟨_,(Action.setTxInlineReuse (s := {s with obj := o}) (started.trans halted)).enabled,?_⟩
    exact alike_keep alike _ (fun o => {o with txReuseInline := _}) rfl (fun _ _ _ _ _ => rfl) rfl id rfl
  | prefillRing =>
    refine ⟨_,(Action.prefillRing (s := {s with obj := o})).enabled,?_⟩
    exact alike_keep alike _ (fun o => prefillRing p o _) rfl (fun _ _ _ _ _ => rfl) rfl id rfl
  | @tryReceive ready running =>
    obtain ⟨o',same,pending,after⟩ := alike_tryReceive fits running alike ready
    refine ⟨o',?_,after _ rfl rfl⟩
    rw [(Action.tryReceive (s := {s with obj := o}) (started.trans running)).enabled]
    simp only [same,pending]
  | release running holding =>
    obtain ⟨o',same,after⟩ := alike_release fits running holding alike
    refine ⟨o',?_,after _ rfl rfl⟩
    rw [(Action.release (s := {s with obj := o}) (started.trans running) holding).enabled]
    simp only [same]
  | @acquire frameLen allocated running pooled =>
    obtain ⟨o',same,after⟩ := alike_acquire running alike frameLen allocated
    refine ⟨o',?_,after _ rfl rfl⟩
    rw [(Action.acquire (s := {s with obj := o}) (started.trans running) pooled).enabled]
    simp only [same]
  | write given =>
    exact ⟨o,(Action.write (s := {s with obj := o}) given).enabled,alike_same alike _ rfl rfl⟩
  | commit running given pending room =>
    obtain ⟨tx,after⟩ := alike_commit running given alike
    refine ⟨_,?_,after _ rfl⟩
    rw [(Action.commit (s := {s with obj := o}) (started.trans running) given (tx.trans pending) room).enabled]
    simp only [port]
  | shutdown =>
    obtain ⟨o',same,after⟩ := alike_shutdown alike
    refine ⟨o',?_,after _ rfl rfl⟩
    rw [(Action.shutdown (s := {s with obj := o})).enabled]
    simp only [same]
  | arrive pooled =>
    exact ⟨o,(Action.arrive (s := {s with obj := o}) pooled).enabled,alike_same alike _ rfl rfl⟩
  | reap flying =>
    exact ⟨o,(Action.reap (s := {s with obj := o}) flying).enabled,alike_same alike _ rfl rfl⟩

private theorem alike_run {t : State} {calls : List Call} (fits : Fits p s) (alike : Alike p s o)
    (ran : run (step p) s calls = some t) : ∃ o', run (step p) {s with obj := o} calls = some {t with obj := o'} := by
  induction calls generalizing s o with
  | nil =>
    cases Option.some.inj ran
    exact ⟨o,rfl⟩
  | cons call rest ih =>
    obtain ⟨next,moved,later⟩ := run_cons_some ran
    obtain ⟨o',same,still⟩ := alike_step fits alike moved
    obtain ⟨o'',rest⟩ := ih (fits_step fits moved) still later
    refine ⟨o'',?_⟩
    rw [run_cons,same]
    exact rest

end

def visible (log : List Obs) : List Obs :=
  log.filter fun
    | .burst .. => false
    | _ => true

/-- Every further sequence of calls shows the same frames, sends and frees. -/
def Transparent (p : Params) (s : State) (o : Port) : Prop :=
  ∀ calls t, run (step p) s calls = some t →
    ∃ t', run (step p) {s with obj := o} calls = some t' ∧ visible t'.log = visible t.log

private theorem transparent_of_alike {p : Params} {s : State} {o : Port} (fits : Fits p s) (alike : Alike p s o) :
    Transparent p s o := by
  intro calls t ran
  obtain ⟨o',same⟩ := alike_run fits alike ran
  exact ⟨_,same,rfl⟩

/-- Nothing undelivered on either side and no buffer acquired, unless the port is dead. -/
def Settled (s : State) (target : Port) : Prop :=
  CanRun s.obj → undelivered s.obj = [] ∧ s.granted = none ∧ undelivered target = []

private theorem alike_of_settled {p : Params} {s : State} {target : Port} (fits : Fits p s) (filled : Filled p target)
    (settled : Settled s target) :
    Alike p s (patch s.obj target.rxBurst target.rxCount target.rxIdx none target.pendingTx) := by
  refine .mk _ _ _ _ _ fun runs => ?_
  obtain ⟨empty,idle,drained⟩ := settled runs
  refine ⟨(pendingRx_none fits.filled empty).symm,filled_congr filled rfl rfl rfl (.inr rfl),drained.trans empty.symm,?_⟩
  exact fun given => absurd idle given

/-- Two objects that never held one mbuf at the same time. -/
structure Apart (o target : Port) : Prop where
  queued : ∀ m ∈ undelivered o, m ∉ undelivered target
  pending : ∀ m, o.pendingTx = some m → target.pendingTx ≠ some m

theorem visible_append (first second : List Obs) : visible (first ++ second) = visible first ++ visible second :=
  List.filter_append ..

/-- A poll that finds the NIC empty shows the head of the queue. -/
theorem poll_visible {p : Params} (s : State) {o : Port} (filled : Filled p o) (running : o.started = true) :
    ∃ t, run (step p) {s with obj := o} [.tryReceive 0] = some t ∧
      visible t.log = visible s.log ++ (undelivered o).head?.toList.map (fun m => .received m (s.world.frame m)) := by
  refine ⟨_,run_singleton (Action.tryReceive (s := {s with obj := o}) running).enabled,?_⟩
  have nothing : rxTaken p o s.world 0 = [] := by simp [rxTaken]
  cases left : undelivered o with
  | nil =>
    dsimp only
    rw [tryReceive_polls s.world 0 filled left,nothing,visible_append]
    rfl
  | cons m rest =>
    dsimp only
    rw [tryReceive_repeats s.world 0 filled left,visible_append]
    rfl

private theorem reap_all (p : Params) (s : State) :
    run (step p) s (List.replicate s.inFlight.length (.reap 0)) =
      some {s with world := s.inFlight.foldl reap s.world, inFlight := []} := by
  obtain ⟨o,w,held,granted,inFlight,log⟩ := s
  induction inFlight generalizing w with
  | nil => rfl
  | cons m rest ih => exact ih (reap w m)

private theorem transparent_step {p : Params} {s t : State} {o o' : Port} {call : Call} (seen : Transparent p s o)
    (moved : step p s call = some t) (same : step p {s with obj := o} call = some {t with obj := o'}) :
    Transparent p t o' := by
  intro calls final ran
  obtain ⟨other,went,shown⟩ := seen (call::calls) final (by rw [run_cons,moved]; exact ran)
  rw [run_cons,same] at went
  exact ⟨other,went,shown⟩

private theorem heads_of_transparent {p : Params} {s : State} {o : Port} (seen : Transparent p s o)
    (original : Filled p s.obj) (filled : Filled p o) (running : s.obj.started = true) (started : o.started = true) :
    (undelivered o).head? = (undelivered s.obj).head? := by
  obtain ⟨t,ran,shows⟩ := poll_visible s original running
  obtain ⟨other,went,here⟩ := poll_visible s filled started
  obtain ⟨found,again,same⟩ := seen _ t ran
  cases Option.some.inj (again.symm.trans went)
  rw [here,shows] at same
  have answers := List.append_cancel_left same
  cases first : (undelivered o).head? <;> cases second : (undelivered s.obj).head? <;> simp_all

private theorem apart_heads {o target : Port} (apart : Apart o target)
    (same : (undelivered target).head? = (undelivered o).head?) :
    undelivered o = [] ∧ undelivered target = [] := by
  cases left : undelivered o with
  | nil =>
    rw [left] at same
    exact ⟨rfl,List.head?_eq_none_iff.mp same⟩
  | cons m rest =>
    rw [left] at same
    have mine : m ∈ undelivered o := left ▸ List.mem_cons_self ..
    exact absurd (List.mem_of_head? same) (apart.queued m mine)

/-- A frame acquired before the move cannot be committed through the other object. -/
theorem granted_of_transparent {p : Params} {s : State} {o : Port} (fits : Fits p s) (running : s.obj.started = true)
    (apart : ∀ m, s.obj.pendingTx = some m → o.pendingTx ≠ some m) (seen : Transparent p s o) : s.granted = none := by
  cases given : s.granted with
  | none => rfl
  | some m =>
    have pending := fits.granted m given
    have reaped := reap_all p s
    have room : ([] : List Mbuf).count m < p.nbTxDesc.toNat := p.txPositive
    have some : s.granted ≠ none := by simp [given]
    have sent := run_trans reaped (run_singleton (Action.commit (p := p)
      (s := {s with world := s.inFlight.foldl reap s.world, inFlight := []}) running some pending room).enabled)
    obtain ⟨t',went,shown⟩ := seen _ _ sent
    rw [run_append,reap_all p {s with obj := o}] at went
    obtain ⟨last,moved,⟨⟩⟩ := run_cons_some went
    cases step_action moved with
    | @commit n _ _ other _ =>
      dsimp only at shown
      rw [visible_append,visible_append] at shown
      have answers := List.append_cancel_left shown
      have names : n = m := by
        simp only [visible,List.filter_cons,if_true,List.filter_nil,List.cons.injEq,Obs.sent.injEq] at answers
        exact answers.1.2.1
      exact absurd (names ▸ other) (apart m pending)

private theorem settled_of_transparent {p : Params} {s : State} {target : Port} (fits : Fits p s) (filled : Filled p target)
    (apart : Apart s.obj target)
    (seen : Transparent p s (patch s.obj target.rxBurst target.rxCount target.rxIdx none target.pendingTx)) :
    Settled s target := by
  intro runs
  have patched : Filled p (patch s.obj target.rxBurst target.rxCount target.rxIdx none target.pendingTx) :=
    filled_congr filled rfl rfl rfl (.inr rfl)
  rcases runs with running | unused
  · have same := heads_of_transparent seen fits.filled patched running running
    obtain ⟨empty,drained⟩ := apart_heads apart same
    have pending : ∀ m, s.obj.pendingTx = some m →
        (patch s.obj target.rxBurst target.rxCount target.rxIdx none target.pendingTx).pendingTx ≠ some m := apart.pending
    exact ⟨empty,granted_of_transparent fits running pending seen,drained⟩
  · obtain ⟨stopped,empty,idle,-⟩ := fits.fresh unused
    have opened : step p s (.init 0) = some _ := if_pos ⟨stopped,unused⟩
    have other : step p {s with obj := patch s.obj target.rxBurst target.rxCount target.rxIdx none target.pendingTx}
      (.init 0) = some _ := if_pos ⟨stopped,unused⟩
    have later := transparent_step seen opened other
    have same := heads_of_transparent later (filled_congr fits.filled rfl rfl rfl (.inl rfl))
      (filled_congr patched rfl rfl rfl (.inl rfl)) rfl rfl
    exact ⟨empty,idle,(apart_heads apart same).2⟩

private theorem moveAssign_fits {p : Params} {s q : State} (fits : Fits p q) :
    (moveAssign q.obj s.world s.obj).1 = patch s.obj q.obj.rxBurst q.obj.rxCount q.obj.rxIdx none q.obj.pendingTx := by
  rw [moveAssign_eq]
  cases running : q.obj.started with
  | false => rw [shutdown_stopped s.world running,fits.stopped running]
  | true => rw [shutdown_running s.world running]

private theorem apart_construct (o : Port) (ifname : String) (lcore : Int) : Apart o (construct ifname lcore) :=
  ⟨fun _ _ => List.not_mem_nil,fun _ _ => nofun⟩

/-- From every state of the source and of the target. -/
theorem move_transparent_iff {p : Params} {ifname formerName : String} {lcore formerCore : Int} {w v : World}
    {calls former : List Call} {s q : State} (ran : run (step p) (start ifname lcore w) calls = some s)
    (target : run (step p) (start formerName formerCore v) former = some q) :
    (Transparent p s (moveConstruct s.obj) ↔ (CanRun s.obj → undelivered s.obj = [] ∧ s.granted = none)) ∧
      (Settled s q.obj →
        Transparent p {s with world := (moveAssign q.obj s.world s.obj).2.1} (moveAssign q.obj s.world s.obj).1) ∧
      (Apart s.obj q.obj →
        Transparent p {s with world := (moveAssign q.obj s.world s.obj).2.1} (moveAssign q.obj s.world s.obj).1 →
          Settled s q.obj) ∧
      ∀ later, shutdown (movedFrom s.obj) later = (movedFrom s.obj,later,[]) := by
  have fits := fits_run ran
  have others := fits_run target
  have moved : Fits p {s with world := (moveAssign q.obj s.world s.obj).2.1} :=
    ⟨fits.filled,fits.handed,fits.stopped,fits.granted,fits.fresh⟩
  have blank := (fits_start p s.obj.ifname s.obj.lcore w).filled
  refine ⟨⟨fun seen runs => ?_,fun settled => ?_⟩,fun settled => ?_,fun apart seen => ?_,shutdown_movedFrom s.obj⟩
  · obtain ⟨empty,idle,-⟩ := settled_of_transparent fits blank (apart_construct ..) seen runs
    exact ⟨empty,idle⟩
  · apply transparent_of_alike fits
    rw [moveConstruct_eq]
    exact alike_of_settled fits blank fun runs => ⟨(settled runs).1,(settled runs).2,rfl⟩
  · rw [moveAssign_fits others]
    exact transparent_of_alike moved (alike_of_settled moved others.filled settled)
  · rw [moveAssign_fits others] at seen
    have settled := settled_of_transparent moved others.filled apart seen
    exact settled

def sourceCalls : List Call :=
  .init 0 :: (twoArrive ++ [.tryReceive 2,.release,.acquire 64 (some 12),.commit])

def targetCalls : List Call := [.init 1,.arrive 1 20 [3],.tryReceive 1,.release]

theorem move_transparent_after_burst :
    ∃ s q, run (step labParams) (start "enp1s0" 2 blankWorld) sourceCalls = some s ∧
      run (step labParams) (start "enp2s0" 3 blankWorld) targetCalls = some q ∧
      s.obj.started = true ∧ released s.log = [10,11] ∧ q.obj.started = true ∧ released q.log = [20] ∧
      Transparent labParams s (moveConstruct s.obj) ∧
      Transparent labParams {s with world := (moveAssign q.obj s.world s.obj).2.1} (moveAssign q.obj s.world s.obj).1 := by
  have ran : run (step labParams) (start "enp1s0" 2 blankWorld) sourceCalls = some _ := rfl
  have target : run (step labParams) (start "enp2s0" 3 blankWorld) targetCalls = some _ := rfl
  obtain ⟨constructed,assigned,-⟩ := move_transparent_iff ran target
  exact ⟨_,_,ran,target,rfl,rfl,rfl,rfl,constructed.mpr fun _ => ⟨rfl,rfl⟩,assigned fun _ => ⟨rfl,rfl,rfl⟩⟩

/-- Moved in the middle of a burst the port loses the rest of it, and moved after an
acquire it hands the driver a null mbuf. -/
theorem move_loses_pending :
    ∃ s t t', run (step labParams) (start "enp1s0" 2 blankWorld) (.init 0 :: twoArrive) = some s ∧
      run (step labParams) s [.tryReceive 1] = some t ∧
      run (step labParams) {s with obj := moveConstruct s.obj} [.tryReceive 1] = some t' ∧
      visible t.log = visible t'.log ++ [.received 11 [2]] ∧
      (∃ a, run (step labParams) s [.acquire 64 (some 12)] = some a ∧ (step labParams a .commit).isSome ∧
        step labParams {a with obj := moveConstruct a.obj} .commit = none) :=
  ⟨_,_,_,rfl,rfl,rfl,rfl,_,rfl,rfl,rfl⟩

end Abtrda3.DpdkMove
