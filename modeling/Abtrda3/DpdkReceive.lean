import Abtrda3.Dpdk
import Mathlib.Data.List.Count

/-! The receive side of the DPDK port. The burst array with its count and index is one
queue of frames still to deliver; the frame handed out stays at its head until it is
released. Every frame a burst brought is delivered in order, but shutdown frees only the
frame that was handed out last. -/
namespace Abtrda3.DpdkReceive
open Abtrda3.Semantics Abtrda3.Semantics.Machine Abtrda3.Dpdk

def undelivered (o : Port) : List Mbuf := (o.rxBurst.take o.rxCount.toNat).drop o.rxIdx.toNat

structure Filled (p : Params) (o : Port) : Prop where
  stored : o.rxCount.toNat ≤ o.rxBurst.length
  counted : o.rxCount.toNat ≤ p.burstSize.toNat
  pending : ∀ m, o.pendingRx = some m → (undelivered o).head? = some m

def withRx (o : Port) (rxBurst : List Mbuf) (rxCount rxIdx : BitVec 16) (pendingRx : Option Mbuf) : Port :=
  {o with rxBurst := rxBurst, rxCount := rxCount, rxIdx := rxIdx, pendingRx := pendingRx}

variable {p : Params} {o : Port}

private theorem undelivered_eq_nil_iff (filled : Filled p o) :
    undelivered o = [] ↔ o.rxCount ≤ o.rxIdx := by
  have stored := filled.stored
  rw [undelivered,List.drop_eq_nil_iff,List.length_take,Nat.min_eq_left stored,BitVec.le_def]

private theorem undelivered_head (left : ¬o.rxCount ≤ o.rxIdx) :
    (undelivered o).head? = o.rxBurst[o.rxIdx.toNat]? := by
  have inside : o.rxIdx.toNat < o.rxCount.toNat := by simpa [BitVec.le_def] using left
  rw [undelivered,List.head?_drop,List.getElem?_take_of_lt inside]

private theorem undelivered_length (filled : Filled p o) :
    (undelivered o).length = o.rxCount.toNat - o.rxIdx.toNat := by
  have stored := filled.stored
  rw [undelivered,List.length_drop,List.length_take,Nat.min_eq_left stored]

theorem pendingRx_none (filled : Filled p o) (nothing : undelivered o = []) :
    o.pendingRx = none := by
  cases waits : o.pendingRx with
  | none => rfl
  | some m =>
    have head := filled.pending m waits
    rw [nothing] at head
    cases head

theorem pending_cases (filled : Filled p o) {m : Mbuf} (waits : o.pendingRx = some m) :
    ∃ rest, undelivered o = m::rest :=
  List.head?_eq_some_iff.mp (filled.pending m waits)

private theorem rxTaken_length (p : Params) (o : Port) (w : World) (ready : Nat) :
    (rxTaken p o w ready).length ≤ p.burstSize.toNat := by
  rw [rxTaken,List.length_take]
  omega

theorem rxTaken_count (p : Params) (o : Port) (w : World) (ready : Nat) :
    (BitVec.ofNat 16 (rxTaken p o w ready).length).toNat = (rxTaken p o w ready).length := by
  have fits := rxTaken_length p o w ready
  have wide := p.burstSize.isLt
  rw [BitVec.toNat_ofNat,Nat.mod_eq_of_lt (by omega)]

theorem rxTaken_append_drop (p : Params) (o : Port) (w : World) (ready : Nat) :
    rxTaken p o w ready ++ (w.nic o.port).drop (rxTaken p o w ready).length = w.nic o.port := by
  rw [rxTaken,List.length_take]
  rcases Nat.le_total (min ready p.burstSize.toNat) (w.nic o.port).length with few | many
  · rw [Nat.min_eq_left few,List.take_append_drop]
  · rw [Nat.min_eq_right many,List.take_of_length_le many,List.drop_length,List.append_nil]

theorem tryReceive_polls (w : World) (ready : Nat) (filled : Filled p o)
    (nothing : undelivered o = []) :
    tryReceive p o w ready =
      (withRx o (rxTaken p o w ready ++ o.rxBurst.drop (rxTaken p o w ready).length)
        (BitVec.ofNat 16 (rxTaken p o w ready).length) 0 (rxTaken p o w ready).head?,
       {w with nic := Function.update w.nic o.port ((w.nic o.port).drop (rxTaken p o w ready).length)},
       .burst o.port ((rxTaken p o w ready).map (fun m => (m,w.frame m))) ::
         (rxTaken p o w ready).head?.toList.map (fun m => .received m (w.frame m))) := by
  have count := rxTaken_count p o w ready
  have idle := pendingRx_none filled nothing
  rw [tryReceive,if_pos ((undelivered_eq_nil_iff filled).mp nothing)]
  dsimp only [rxBurst,handOut,withRx]
  cases taken : rxTaken p o w ready with
  | nil => simp [idle]
  | cons m rest =>
    rw [taken] at count
    rw [if_neg]
    · simp [World.frame]
    · intro zero
      rw [zero] at count
      simp at count

theorem tryReceive_repeats (w : World) (ready : Nat) (filled : Filled p o)
    {m : Mbuf} {rest : List Mbuf} (left : undelivered o = m::rest) :
    tryReceive p o w ready = ({o with pendingRx := some m},w,[.received m (w.frame m)]) := by
  have more : ¬o.rxCount ≤ o.rxIdx := by
    intro drained
    rw [(undelivered_eq_nil_iff filled).mpr drained] at left
    cases left
  have head := undelivered_head more
  rw [left,List.head?_cons] at head
  rw [tryReceive,if_neg more,handOut]
  simp [← head]

theorem undelivered_polled (o : Port) (taken stale : List Mbuf) (pending : Option Mbuf)
    (count : (BitVec.ofNat 16 taken.length).toNat = taken.length) :
    undelivered (withRx o (taken ++ stale) (BitVec.ofNat 16 taken.length) 0 pending) = taken := by
  rw [undelivered]
  dsimp only [withRx]
  rw [count,List.take_left]
  rfl

theorem undelivered_rxTaken (p : Params) (o : Port) (w : World) (ready : Nat) (stale : List Mbuf) :
    undelivered (withRx o (rxTaken p o w ready ++ stale) (BitVec.ofNat 16 (rxTaken p o w ready).length) 0
      (rxTaken p o w ready).head?) = rxTaken p o w ready :=
  undelivered_polled o _ stale _ (rxTaken_count p o w ready)

theorem filled_polled (p : Params) (o : Port) (w : World) (ready : Nat) (stale : List Mbuf) :
    Filled p (withRx o (rxTaken p o w ready ++ stale) (BitVec.ofNat 16 (rxTaken p o w ready).length) 0
      (rxTaken p o w ready).head?) := by
  have count := rxTaken_count p o w ready
  refine ⟨?_,?_,fun m waits => ?_⟩
  · simp only [withRx,count,List.length_append]
    omega
  · simp only [withRx,count]
    exact rxTaken_length p o w ready
  · rw [undelivered_rxTaken]
    exact waits

theorem filled_repeated (filled : Filled p o) {m : Mbuf} {rest : List Mbuf}
    (left : undelivered o = m::rest) : Filled p {o with pendingRx := some m} := by
  refine ⟨filled.stored,filled.counted,fun other waits => ?_⟩
  cases Option.some.inj waits
  change (undelivered o).head? = some m
  rw [left,List.head?_cons]

theorem undelivered_release (w : World) (filled : Filled p o) {m : Mbuf} {rest : List Mbuf}
    (left : undelivered o = m::rest) : undelivered (release o w).1 = rest := by
  have wide := o.rxCount.isLt
  have more : o.rxIdx.toNat < o.rxCount.toNat := by
    have size := undelivered_length filled
    rw [left,List.length_cons] at size
    omega
  have next : (o.rxIdx + 1).toNat = o.rxIdx.toNat + 1 := by bv_omega
  change (o.rxBurst.take o.rxCount.toNat).drop (o.rxIdx + 1).toNat = rest
  rw [next,← List.drop_drop]
  change (undelivered o).drop 1 = rest
  rw [left]
  rfl

theorem filled_release (w : World) (filled : Filled p o) : Filled p (release o w).1 :=
  ⟨filled.stored,filled.counted,fun _ waits => by cases waits⟩

theorem undelivered_congr {o t : Port} (burst : t.rxBurst = o.rxBurst) (count : t.rxCount = o.rxCount)
    (idx : t.rxIdx = o.rxIdx) : undelivered t = undelivered o := by
  rw [undelivered,undelivered,burst,count,idx]

theorem filled_congr {o t : Port} (filled : Filled p o) (burst : t.rxBurst = o.rxBurst)
    (count : t.rxCount = o.rxCount) (idx : t.rxIdx = o.rxIdx)
    (pending : t.pendingRx = o.pendingRx ∨ t.pendingRx = none) : Filled p t := by
  refine ⟨?_,?_,fun m waits => ?_⟩
  · rw [burst,count]
    exact filled.stored
  · rw [count]
    exact filled.counted
  · rw [undelivered_congr burst count idx]
    rcases pending with same | gone
    · exact filled.pending m (same ▸ waits)
    · rw [gone] at waits
      cases waits

private theorem filled_tryReceive (filled : Filled p o) (w : World) (ready : Nat) :
    Filled p (tryReceive p o w ready).1 := by
  cases left : undelivered o with
  | nil =>
    rw [tryReceive_polls w ready filled left]
    exact filled_polled p o w ready _
  | cons m rest =>
    rw [tryReceive_repeats w ready filled left]
    exact filled_repeated filled left

/-- The caller holds what the port has pending, and a port that was never opened holds nothing. -/
structure Fits (p : Params) (s : State) : Prop where
  filled : Filled p s.obj
  handed : s.obj.started = true → s.held = s.obj.pendingRx
  stopped : s.obj.started = false → s.obj.pendingRx = none
  granted : ∀ m, s.granted = some m → s.obj.pendingTx = some m
  fresh : s.obj.pool = none → s.obj.started = false ∧ undelivered s.obj = [] ∧ s.granted = none ∧ s.held = none

private theorem tryReceive_members (filled : Filled p o) (w : World) (ready : Nat) :
    (tryReceive p o w ready).1.pool = o.pool ∧ (tryReceive p o w ready).1.started = o.started ∧
      (tryReceive p o w ready).1.pendingTx = o.pendingTx := by
  cases left : undelivered o with
  | nil =>
    rw [tryReceive_polls w ready filled left]
    exact ⟨rfl,rfl,rfl⟩
  | cons m rest =>
    rw [tryReceive_repeats w ready filled left]
    exact ⟨rfl,rfl,rfl⟩

/-- An acquire touches the two transmit mbufs only, and what it grants is pending. -/
theorem acquire_obj (o : Port) (w : World) (frameLen : BitVec 32) (allocated : Option Mbuf) :
    ∃ pendingTx txReuse, (acquire o w frameLen allocated).1 = {o with pendingTx := pendingTx, txReuse := txReuse} ∧
      ∀ m, (acquire o w frameLen allocated).2.2 = some m → pendingTx = some m := by
  rcases Decidable.em (o.txReuseInline ∧ frameLen ≤ inlineSafeLen) with inline | plain
  · cases shared : o.txReuse with
    | some m =>
      rw [acquire_shared w allocated inline shared]
      exact ⟨_,_,rfl,fun _ same => same⟩
    | none =>
      cases allocated with
      | none =>
        rw [acquire_refused w inline shared]
        exact ⟨_,_,rfl,nofun⟩
      | some m =>
        rw [acquire_first w m inline shared]
        exact ⟨_,_,rfl,fun _ same => same⟩
  · cases allocated with
    | none =>
      rw [acquire_failed w plain]
      exact ⟨_,_,rfl,nofun⟩
    | some m =>
      rw [acquire_fresh w m plain]
      exact ⟨_,_,rfl,fun _ same => same⟩

theorem fits_step {s t : State} {call : Call} (fits : Fits p s) (moved : step p s call = some t) :
    Fits p t := by
  obtain ⟨filled,handed,stopped,granted,fresh⟩ := fits
  cases step_action moved with
  | init halted unused =>
    obtain ⟨-,-,-,empty⟩ := fresh unused
    exact ⟨filled_congr filled rfl rfl rfl (.inl rfl),fun _ => empty.trans (stopped halted).symm,nofun,granted,nofun⟩
  | setTxInlineReuse halted =>
    exact ⟨filled_congr filled rfl rfl rfl (.inl rfl),handed,stopped,granted,fresh⟩
  | prefillRing => exact ⟨filled_congr filled rfl rfl rfl (.inl rfl),handed,stopped,granted,fresh⟩
  | tryReceive running =>
    obtain ⟨pool,started,pendingTx⟩ := tryReceive_members filled s.world _
    refine ⟨filled_tryReceive filled s.world _,fun _ => rfl,fun halted => ?_,fun m given => ?_,fun unused => ?_⟩
    · rw [started,running] at halted
      cases halted
    · exact pendingTx.trans (granted m given)
    · rw [(fresh (pool.symm.trans unused)).1] at running
      cases running
  | release running holding =>
    refine ⟨filled_release s.world filled,fun _ => rfl,fun _ => rfl,granted,fun unused => ?_⟩
    rw [(fresh unused).1] at running
    cases running
  | @acquire frameLen allocated running pooled =>
    obtain ⟨pendingTx,txReuse,same,grants⟩ := acquire_obj s.obj s.world frameLen allocated
    rw [same]
    refine ⟨filled_congr filled rfl rfl rfl (.inl rfl),handed,stopped,grants,fun unused => ?_⟩
    rw [(fresh unused).1] at running
    cases running
  | write given => exact ⟨filled,handed,stopped,granted,fresh⟩
  | commit running given pending room =>
    refine ⟨filled_congr filled rfl rfl rfl (.inl rfl),handed,stopped,nofun,fun unused => ?_⟩
    rw [(fresh unused).1] at running
    cases running
  | shutdown =>
    cases running : s.obj.started with
    | false =>
      rw [shutdown_stopped s.world running]
      exact ⟨filled,handed,stopped,granted,fresh⟩
    | true =>
      rw [shutdown_running s.world running]
      refine ⟨filled_congr filled rfl rfl rfl (.inr rfl),nofun,fun _ => rfl,granted,fun unused => ?_⟩
      rw [(fresh unused).1] at running
      cases running
  | arrive pooled => exact ⟨filled,handed,stopped,granted,fresh⟩
  | reap flying => exact ⟨filled,handed,stopped,granted,fresh⟩

theorem fits_start (p : Params) (ifname : String) (lcore : Int) (w : World) : Fits p (start ifname lcore w) :=
  ⟨⟨Nat.zero_le _,Nat.zero_le _,nofun⟩,fun _ => rfl,fun _ => rfl,nofun,fun _ => ⟨rfl,rfl,rfl,rfl⟩⟩

theorem fits_run {ifname : String} {lcore : Int} {w : World} {s : State} {calls : List Call}
    (ran : run (step p) (start ifname lcore w) calls = some s) : Fits p s :=
  reachable_invariant (Fits p) (fun _ _ _ fits moved => fits_step fits moved) (fits_start p ifname lcore w) ran

def obtained (log : List Obs) : List (Mbuf × List (BitVec 8)) :=
  log.flatMap fun
    | .burst _ taken => taken
    | _ => []

def released (log : List Obs) : List Mbuf :=
  log.filterMap fun
    | .freed m => some m
    | _ => none

@[simp] theorem obtained_append (first second : List Obs) :
    obtained (first ++ second) = obtained first ++ obtained second := List.flatMap_append

@[simp] theorem released_append (first second : List Obs) :
    released (first ++ second) = released first ++ released second := List.filterMap_append

@[simp] theorem obtained_received (m : Mbuf) (frame : List (BitVec 8)) : obtained [.received m frame] = [] := rfl

@[simp] theorem released_received (m : Mbuf) (frame : List (BitVec 8)) : released [.received m frame] = [] := rfl

@[simp] theorem obtained_burst (port : BitVec 16) (taken : List (Mbuf × List (BitVec 8))) :
    obtained [.burst port taken] = taken := List.append_nil taken

@[simp] theorem released_burst (port : BitVec 16) (taken : List (Mbuf × List (BitVec 8))) :
    released [.burst port taken] = [] := rfl

@[simp] theorem obtained_freed (pending : Option Mbuf) : obtained (pending.toList.map .freed) = [] := by
  cases pending <;> rfl

@[simp] theorem released_freed (pending : Option Mbuf) : released (pending.toList.map .freed) = pending.toList := by
  cases pending <;> rfl

/-- The frames handed out, without the repetitions before a release, and whether the last
one is still held. -/
def takeIn (seen : List (Mbuf × List (BitVec 8)) × Bool) : Obs → List (Mbuf × List (BitVec 8)) × Bool
  | .received m frame => (if seen.2 then seen.1 else seen.1 ++ [(m,frame)],true)
  | .freed _ => (seen.1,false)
  | _ => seen

def returned (log : List Obs) : List (Mbuf × List (BitVec 8)) × Bool := log.foldl takeIn ([],false)

@[simp] theorem returned_append (first second : List Obs) :
    returned (first ++ second) = second.foldl takeIn (returned first) := List.foldl_append

private theorem takeIn_freed (seen : List (Mbuf × List (BitVec 8)) × Bool) (pending : Option Mbuf)
    (held : seen.2 = pending.isSome) :
    (pending.toList.map Obs.freed).foldl takeIn seen = (seen.1,false) := by
  cases pending with
  | none => exact Prod.ext rfl held
  | some m => rfl

/-- Every frame handed out is the one whose turn it is: as many frames were released
before it as were obtained before it. -/
def InTurn (log : List Obs) : Prop :=
  ∀ before m frame after, log = before ++ .received m frame :: after →
    (obtained before)[(released before).length]? = some (m,frame)

private theorem inTurn_nil : InTurn [] := by
  intro before m frame after same
  cases before <;> cases same

theorem inTurn_quiet {log more : List Obs} (turn : InTurn log) (quiet : ∀ m frame, .received m frame ∉ more) :
    InTurn (log ++ more) := by
  intro before m frame after same
  rw [List.append_eq_append_iff] at same
  rcases same with ⟨middle,rfl,tail⟩ | ⟨middle,rfl,tail⟩
  · exact absurd (tail ▸ List.mem_append_right middle (List.mem_cons_self ..)) (quiet m frame)
  · cases middle with
    | nil =>
      rw [List.nil_append] at tail
      exact absurd (tail ▸ List.mem_cons_self ..) (quiet m frame)
    | cons first rest =>
      cases tail
      exact turn before m frame rest rfl

private theorem inTurn_received {log : List Obs} (turn : InTurn log) {m : Mbuf} {frame : List (BitVec 8)}
    (next : (obtained log)[(released log).length]? = some (m,frame)) : InTurn (log ++ [.received m frame]) := by
  intro before other bytes after same
  rcases List.eq_nil_or_concat' after with rfl | ⟨rest,last,rfl⟩
  · obtain ⟨rfl,⟨⟩⟩ := List.append_inj' same rfl
    exact next
  · rw [← List.cons_append,← List.append_assoc] at same
    obtain ⟨rfl,-⟩ := List.append_inj' same rfl
    exact turn before other bytes rest rfl

private theorem frame_arrive (w : World) (port : BitVec 16) {m other : Mbuf} (frame : List (BitVec 8)) (apart : other ≠ m) :
    (arrive w port m frame).frame other = w.frame other := by
  simp [arrive,World.frame,World.setLen,World.copy,World.alloc,apart]

private theorem frame_freeMaybe (w : World) (pending : Option Mbuf) : (w.freeMaybe pending).frame = w.frame := by
  cases pending <;> rfl

theorem nic_freeMaybe (w : World) (pending : Option Mbuf) : (w.freeMaybe pending).nic = w.nic := by
  cases pending <;> rfl

def Receiving : Call → Prop
  | .tryReceive _ | .release | .arrive .. => True
  | _ => False

structure Accounted (p : Params) (s : State) : Prop where
  running : s.obj.started = true
  plain : s.obj.txReuse = none
  filled : Filled p s.obj
  handed : s.held = s.obj.pendingRx
  account : ∃ done, obtained s.log = done ++ (undelivered s.obj).map (fun m => (m,s.world.frame m)) ∧
    released s.log = done.map Prod.fst ∧
    returned s.log = (done ++ s.obj.pendingRx.toList.map (fun m => (m,s.world.frame m)),s.obj.pendingRx.isSome)
  distinct : (undelivered s.obj ++ s.world.nic s.obj.port).Nodup
  owned : ∀ m ∈ undelivered s.obj ++ s.world.nic s.obj.port, m ∈ s.world.out
  turn : InTurn s.log

private theorem accounted_tryReceive {s : State} (accounted : Accounted p s) (ready : Nat) :
    Accounted p {s with obj := (tryReceive p s.obj s.world ready).1, world := (tryReceive p s.obj s.world ready).2.1,
                        held := (tryReceive p s.obj s.world ready).1.pendingRx,
                        log := s.log ++ (tryReceive p s.obj s.world ready).2.2} := by
  obtain ⟨running,plain,filled,handed,⟨done,brought,freed,given⟩,distinct,owned,turn⟩ := accounted
  have turnNext : ∀ {m : Mbuf} {rest : List Mbuf}, undelivered s.obj = m::rest →
      (obtained s.log)[(released s.log).length]? = some (m,s.world.frame m) := by
    intro m rest left
    rw [brought,freed,List.length_map,List.getElem?_append_right (Nat.le_refl _),Nat.sub_self,left]
    rfl
  cases left : undelivered s.obj with
  | cons m rest =>
    rw [tryReceive_repeats s.world ready filled left]
    refine ⟨running,plain,filled_repeated filled left,rfl,⟨done,?_,?_,?_⟩,distinct,owned,
      inTurn_received turn (turnNext left)⟩
    · rw [obtained_append,obtained_received,List.append_nil]
      exact brought
    · rw [released_append,released_received,List.append_nil]
      exact freed
    · rw [returned_append,given]
      cases waits : s.obj.pendingRx with
      | none => simp [takeIn]
      | some n =>
        have head := filled.pending n waits
        rw [left,List.head?_cons] at head
        cases Option.some.inj head
        simp [takeIn]
  | nil =>
    rw [tryReceive_polls s.world ready filled left]
    have queue := undelivered_rxTaken p s.obj s.world ready (s.obj.rxBurst.drop (rxTaken p s.obj s.world ready).length)
    have whole := rxTaken_append_drop p s.obj s.world ready
    have full := filled_polled p s.obj s.world ready (s.obj.rxBurst.drop (rxTaken p s.obj s.world ready).length)
    rw [pendingRx_none filled left] at given
    rw [left,List.map_nil,List.append_nil] at brought
    rw [left,List.nil_append] at distinct owned
    generalize rxTaken p s.obj s.world ready = taken at *
    have grown : InTurn (s.log ++ [.burst s.obj.port (taken.map (fun m => (m,s.world.frame m)))]) :=
      inTurn_quiet turn (by simp)
    refine ⟨running,plain,full,rfl,⟨done,?_,?_,?_⟩,?_,?_,?_⟩
    · rw [queue,← List.singleton_append,obtained_append,obtained_append,obtained_burst,brought]
      cases taken with
      | nil => rfl
      | cons m rest => simp [World.frame]
    · rw [← List.singleton_append,released_append,released_append,released_burst,freed]
      cases taken with
      | nil => simp [released]
      | cons m rest => simp
    · rw [returned_append,given]
      cases taken with
      | nil => simp [takeIn,withRx]
      | cons m rest => simp [takeIn,withRx,World.frame]
    · rw [queue]
      simpa [withRx,whole] using distinct
    · rw [queue]
      simpa [withRx,whole] using owned
    · rw [← List.singleton_append,← List.append_assoc]
      cases taken with
      | nil => simpa using grown
      | cons m rest =>
        apply inTurn_received grown
        simp [brought,freed]

private theorem accounted_release {s : State} (accounted : Accounted p s) (holding : s.held ≠ none) :
    Accounted p {s with obj := (release s.obj s.world).1, world := (release s.obj s.world).2.1, held := none,
                        log := s.log ++ (release s.obj s.world).2.2} := by
  obtain ⟨running,plain,filled,handed,⟨done,brought,freed,given⟩,distinct,owned,turn⟩ := accounted
  obtain ⟨m,waits⟩ := Option.ne_none_iff_exists'.mp (handed ▸ holding)
  obtain ⟨rest,left⟩ := pending_cases filled waits
  have queue := undelivered_release s.world filled left
  rw [left,List.cons_append,List.nodup_cons] at distinct
  rw [left] at brought owned
  refine ⟨running,plain,filled_release s.world filled,rfl,⟨done ++ [(m,s.world.frame m)],?_,?_,?_⟩,?_,?_,?_⟩
  · rw [queue,obtained_append]
    simp [release,brought,frame_freeMaybe]
  · dsimp only [release]
    rw [released_append,released_freed,freed,waits]
    simp
  · rw [waits] at given
    simp [release,waits,given,takeIn]
  · rw [queue]
    simpa [release,nic_freeMaybe] using distinct.2
  · rw [queue]
    intro other member
    simp only [release,waits,nic_freeMaybe] at member ⊢
    refine (List.mem_erase_of_ne ?_).mpr (owned other (List.mem_cons_of_mem m member))
    intro same
    exact distinct.1 (same ▸ member)
  · exact inTurn_quiet turn (by simp [release])

private theorem accounted_arrive {s : State} (accounted : Accounted p s) {m : Mbuf} (pooled : m ∉ s.world.out)
    (port : BitVec 16) (frame : List (BitVec 8)) : Accounted p {s with world := arrive s.world port m frame} := by
  obtain ⟨running,plain,filled,handed,⟨done,brought,freed,given⟩,distinct,owned,turn⟩ := accounted
  have apart : ∀ other ∈ undelivered s.obj ++ s.world.nic s.obj.port, other ≠ m :=
    fun other member same => pooled (same ▸ owned other member)
  have queue : ∃ more, (arrive s.world port m frame).nic s.obj.port = s.world.nic s.obj.port ++ more ∧
      (more = [] ∨ more = [m]) := by
    rcases eq_or_ne s.obj.port port with here | there
    · exact ⟨[m],by rw [here]; exact Function.update_self .., .inr rfl⟩
    · exact ⟨[],by rw [List.append_nil]; exact Function.update_of_ne there .., .inl rfl⟩
  obtain ⟨more,nic,which⟩ := queue
  have kept : ∀ other ∈ undelivered s.obj,
      (other,s.world.frame other) = (other,(arrive s.world port m frame).frame other) := by
    intro other member
    rw [frame_arrive s.world port frame (apart other (List.mem_append_left _ member))]
  refine ⟨running,plain,filled,handed,⟨done,?_,freed,?_⟩,?_,?_,turn⟩
  · rw [brought,List.map_congr_left kept]
  · rw [given]
    congr 2
    apply List.map_congr_left
    intro other waits
    exact kept other (List.mem_of_head? (filled.pending other (Option.mem_toList.mp waits)))
  · dsimp only
    rw [nic,← List.append_assoc]
    rcases which with rfl | rfl
    · simpa using distinct
    · rw [List.nodup_append]
      refine ⟨distinct,List.pairwise_singleton _ m,fun other member last isLast => ?_⟩
      rw [List.mem_singleton.mp isLast]
      exact apart other member
  · dsimp only
    rw [nic,← List.append_assoc]
    intro other member
    rcases List.mem_append.mp member with old | new
    · exact List.mem_cons_of_mem m (owned other old)
    · rcases which with rfl | rfl
      · cases new
      · rw [List.mem_singleton.mp new]
        exact List.mem_cons_self ..

private theorem accounted_step {s t : State} {call : Call} (accounted : Accounted p s)
    (receiving : Receiving call) (moved : step p s call = some t) : Accounted p t := by
  cases step_action moved with
  | tryReceive running => exact accounted_tryReceive accounted _
  | release running holding => exact accounted_release accounted holding
  | arrive pooled => exact accounted_arrive accounted pooled _ _
  | _ => exact receiving.elim

private theorem shutdown_plain (w : World) (running : o.started = true) (plain : o.txReuse = none) :
    shutdown o w =
      ({o with pendingRx := none, started := false},w.freeMaybe o.pendingRx,o.pendingRx.toList.map .freed) := by
  simp [shutdown,running,plain]

private theorem accounted_init {ifname : String} {lcore : Int} {port : BitVec 16} {w : World} {s : State}
    (quiet : w.nic = fun _ => []) (opened : step p (start ifname lcore w) (.init port) = some s) :
    Accounted p s := by
  cases Option.some.inj opened
  refine ⟨rfl,rfl,⟨Nat.zero_le _,Nat.zero_le _,fun _ waits => by cases waits⟩,rfl,⟨[],rfl,rfl,rfl⟩,?_,?_,inTurn_nil⟩
  · simp [undelivered,start,construct,quiet]
  · simp [undelivered,start,construct,quiet]

private theorem accounted_run {ifname : String} {lcore : Int} {port : BitVec 16} {w : World} {t : State}
    {calls : List Call} (quiet : w.nic = fun _ => []) (receiving : ∀ call ∈ calls, Receiving call)
    (ran : run (step p) (start ifname lcore w) (.init port :: calls) = some t) : Accounted p t := by
  obtain ⟨s,opened,rest⟩ := run_cons_some ran
  exact run_invariant (Accounted p) (fun _ _ _ accounted ok moved => accounted_step accounted ok moved)
    (accounted_init quiet opened) (along_of_forall s receiving) rest

theorem inTurn_again {log before middle after : List Obs} {m n : Mbuf} {first second : List (BitVec 8)}
    (turn : InTurn log) (same : log = before ++ .received m first :: (middle ++ .received n second :: after))
    (kept : released middle = []) : (n,second) = (m,first) := by
  have one := turn before m first _ same
  have two := turn (before ++ .received m first :: middle) n second after (by simp [same])
  rw [← List.singleton_append,← List.append_assoc,obtained_append,obtained_append,released_append,released_append,kept,
    obtained_received,released_received,List.append_nil,List.append_nil,List.append_nil] at two
  have bound := (List.getElem?_eq_some_iff.mp one).1
  rw [List.getElem?_append_left bound,one] at two
  exact (Option.some.inj two).symm

/-- Every frame a burst brought is handed out in its turn and again until its release; what
was handed out is what was freed, in the order of the bursts. All the frames of the bursts
were handed out, and all were freed once, after shutdown exactly if no frame was left behind
the one handed out last. -/
theorem rx_mbufs_freed_once_iff {p : Params} {ifname : String} {lcore : Int} {port : BitVec 16} {w : World}
    {t u : State} {calls : List Call} (quiet : w.nic = fun _ => []) (receiving : ∀ call ∈ calls, Receiving call)
    (ran : run (step p) (start ifname lcore w) (.init port :: calls) = some t)
    (closed : step p t .shutdown = some u) :
    InTurn u.log ∧
      (∀ before m first middle n second after,
        u.log = before ++ .received m first :: (middle ++ .received n second :: after) → released middle = [] →
          (n,second) = (m,first)) ∧
      (returned u.log).1 <+: obtained u.log ∧
      released u.log = (returned u.log).1.map Prod.fst ∧
      ((returned u.log).1 = obtained u.log ↔ undelivered t.obj = t.obj.pendingRx.toList) ∧
      ((∀ m, (released u.log).count m = ((obtained u.log).map Prod.fst).count m) ↔
        undelivered t.obj = t.obj.pendingRx.toList) := by
  obtain ⟨running,plain,filled,handed,⟨done,brought,freed,given⟩,distinct,owned,turn⟩ := accounted_run quiet receiving ran
  have log : u.log = t.log ++ t.obj.pendingRx.toList.map .freed := by
    rw [step,shutdown_plain t.world running plain] at closed
    rw [← Option.some.inj closed]
  have turned : InTurn u.log := log ▸ inTurn_quiet turn (by simp)
  have freedAll : released u.log = done.map Prod.fst ++ t.obj.pendingRx.toList := by
    rw [log,released_append,freed,released_freed]
  have brought : obtained u.log = done ++ (undelivered t.obj).map (fun m => (m,t.world.frame m)) := by
    rw [log,obtained_append,obtained_freed,List.append_nil,brought]
  have given : (returned u.log).1 = done ++ t.obj.pendingRx.toList.map (fun m => (m,t.world.frame m)) := by
    rw [log,returned_append,takeIn_freed _ _ (by rw [given]),given]
  have names (mbufs : List Mbuf) : (mbufs.map (fun m => (m,t.world.frame m))).map Prod.fst = mbufs := by
    simp [Function.comp_def]
  have first : t.obj.pendingRx.toList <+: undelivered t.obj := by
    cases waits : t.obj.pendingRx with
    | none => exact List.nil_prefix
    | some m =>
      obtain ⟨rest,queue⟩ := pending_cases filled waits
      exact ⟨rest,queue.symm⟩
  refine ⟨turned,fun _ _ _ _ _ _ _ same kept => inTurn_again turned same kept,?_,?_,?_,?_⟩
  · rw [given,brought]
    exact (List.prefix_append_right_inj _).mpr (first.map _)
  · rw [freedAll,given,List.map_append,names]
  · rw [given,brought]
    constructor
    · intro same
      have mbufs := congrArg (List.map Prod.fst) (List.append_cancel_left same)
      rw [names,names] at mbufs
      exact mbufs.symm
    · intro same
      rw [same]
  · rw [freedAll,brought,List.map_append,names]
    constructor
    · intro counts
      apply (List.IsPrefix.eq_of_length first ?_).symm
      apply List.Perm.length_eq
      apply List.perm_iff_count.mpr
      intro m
      have count := counts m
      rw [List.count_append,List.count_append] at count
      omega
    · intro same m
      rw [same]

def twoArrive : List Call := [.arrive 0 10 [1],.arrive 0 11 [2],.tryReceive 2,.tryReceive 2,.release]

private theorem twoArrive_receiving : ∀ call ∈ twoArrive, Receiving call := by
  simp [twoArrive,Receiving]

theorem rx_mbufs_freed_once_after_two :
    ∃ t u, run (step labParams) (start "enp1s0" 2 blankWorld) (.init 0 :: (twoArrive ++ [.tryReceive 2])) = some t ∧
      step labParams t .shutdown = some u ∧ undelivered t.obj = t.obj.pendingRx.toList ∧
      (returned u.log).1 = obtained u.log ∧ obtained u.log = [(10,[1]),(11,[2])] ∧
      ∀ m, (released u.log).count m = ((obtained u.log).map Prod.fst).count m := by
  have receiving : ∀ call ∈ twoArrive ++ [.tryReceive 2], Receiving call := by
    simp [twoArrive,Receiving]
  have ran : run (step labParams) (start "enp1s0" 2 blankWorld) (.init 0 :: (twoArrive ++ [.tryReceive 2])) = some _ := rfl
  obtain ⟨-,-,-,-,whole,once⟩ := rx_mbufs_freed_once_iff rfl receiving ran rfl
  exact ⟨_,_,ran,rfl,rfl,whole.mpr rfl,rfl,once.mpr rfl⟩

/-- Shutdown between the two frames of one burst leaks the second. -/
theorem shutdown_leaks_rest_of_burst :
    ∃ t u, run (step labParams) (start "enp1s0" 2 blankWorld) (.init 0 :: twoArrive) = some t ∧
      (∀ call ∈ twoArrive, Receiving call) ∧ step labParams t .shutdown = some u ∧
      (obtained u.log).map Prod.fst = [10,11] ∧ released u.log = [10] ∧ 11 ∈ u.world.out :=
  ⟨_,_,rfl,twoArrive_receiving,rfl,rfl,rfl,by decide⟩

end Abtrda3.DpdkReceive
