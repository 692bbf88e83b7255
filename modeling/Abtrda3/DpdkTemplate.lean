import Abtrda3.Dpdk

/-! Which bytes a DPDK port transmits. The ordinary path stamps the template into a fresh
mbuf for every frame; the inline path stamps one mbuf once and carries its bytes over. A
caller that rewrites the same offsets in every frame cannot see the difference: outside
those offsets the shared mbuf always agrees with the template. -/
namespace Abtrda3.DpdkTemplate
open Abtrda3.Semantics Abtrda3.Semantics.Machine Abtrda3.Dpdk

structure Round where
  reaps : List Nat
  frameLen : BitVec 32
  values : Nat → BitVec 8
  allocated : Mbuf

namespace Round

def writes (offsets : List Nat) (r : Round) : List Nat := offsets.filter (· < r.frameLen.toNat)

def calls (offsets : List Nat) (r : Round) : List Call :=
  r.reaps.map .reap ++ .acquire r.frameLen (some r.allocated) ::
    ((r.writes offsets).map (fun o => .write o [r.values o]) ++ [.commit])

def content (template : ByteMemory) (offsets : List Nat) (r : Round) : List (BitVec 8) :=
  (List.range r.frameLen.toNat).map fun i => if i ∈ offsets then r.values i else template i

theorem mem_writes {offsets : List Nat} {r : Round} {i : Nat} :
    i ∈ r.writes offsets ↔ i ∈ offsets ∧ i < r.frameLen.toNat := by
  simp [writes]

end Round

def frames (log : List Obs) : List (List (BitVec 8)) :=
  log.filterMap fun
    | .sent _ _ frame => some frame
    | _ => none

def Agrees (template : ByteMemory) (offsets : List Nat) (len : Nat) (bytes : ByteMemory) : Prop :=
  ∀ i < len, i ∉ offsets → bytes i = template i

structure Stamped (template : ByteMemory) (offsets : List Nat) (len : Nat) (s : State) : Prop where
  running : s.obj.started = true
  length : s.obj.txTemplateLen.toNat = len
  stored : ∀ i < len, s.obj.txTemplate i = template i
  shared : ∀ m, s.obj.txReuse = some m → Agrees template offsets len (s.world.data m)

private theorem reap_data (w : World) (m : Mbuf) : (reap w m).data = w.data := by
  unfold reap
  split <;> rfl

private theorem stampFresh_data (o : Port) (w : World) (m n : Mbuf) (frameLen : BitVec 32) (i : Nat) :
    (stampFresh o w m frameLen).data n i =
      if n = m ∧ i < min frameLen.toNat o.txTemplateLen.toNat then o.txTemplate i else w.data n i := by
  unfold stampFresh
  dsimp only
  split
  · next empty => simp [empty,World.alloc,World.setLen]
  · rcases eq_or_ne n m with rfl | apart
    · simp only [World.copy,Function.update_self,ByteMemory.write_read,true_and]
      rfl
    · rw [if_neg (fun both => apart both.1)]
      simp only [World.copy,Function.update_of_ne apart]
      rfl

private theorem stampReuse_data (o : Port) (w : World) (m : Mbuf) (i : Nat) :
    (stampReuse o w m).data m i = if i < o.txTemplateLen.toNat then o.txTemplate i else w.data m i := by
  unfold stampReuse
  dsimp only
  split
  · next empty => simp [empty,World.alloc,World.refcntSet]
  · simp only [World.copy,Function.update_self,ByteMemory.write_read]
    rfl

private theorem grantReuse_data (o : Port) (w : World) (m : Mbuf) (frameLen : BitVec 32) :
    (grantReuse o w m frameLen).2.1.data = w.data ∧
      (grantReuse o w m frameLen).2.1.dataLen m = frameLen.setWidth 16 := by
  unfold grantReuse
  dsimp only
  split <;> exact ⟨rfl,Function.update_self ..⟩

private theorem stampFresh_dataLen (o : Port) (w : World) (m : Mbuf) (frameLen : BitVec 32) :
    (stampFresh o w m frameLen).dataLen m = frameLen.setWidth 16 := by
  unfold stampFresh
  dsimp only
  split <;> exact Function.update_self ..

section
variable {p : Params} {template : ByteMemory} {offsets : List Nat} {len : Nat} {s t : State}

private theorem stamped_reaps {reaps : List Nat} (stamped : Stamped template offsets len s)
    (ran : run (step p) s (reaps.map .reap) = some t) : Stamped template offsets len t ∧ t.log = s.log := by
  induction reaps generalizing s with
  | nil =>
    cases Option.some.inj ran
    exact ⟨stamped,rfl⟩
  | cons position rest ih =>
    obtain ⟨next,moved,later⟩ := run_cons_some ran
    cases step_action moved with
    | @reap _ m flying =>
      have still : Stamped template offsets len
          {s with world := reap s.world m, inFlight := s.inFlight.eraseIdx position} :=
        ⟨stamped.running,stamped.length,stamped.stored,reap_data s.world m ▸ stamped.shared⟩
      have rest := ih still later
      exact rest

/-- Whichever path is taken, the granted mbuf has the frame's length and agrees with the
template where the caller does not write. -/
structure Ready (template : ByteMemory) (offsets : List Nat) (frameLen : BitVec 32) (s : State) (m : Mbuf) : Prop where
  given : s.granted = some m
  pending : s.obj.pendingTx = some m
  sized : s.world.dataLen m = frameLen.setWidth 16
  agrees : Agrees template offsets frameLen.toNat (s.world.data m)

private theorem stamped_reuse {o : Port} {w : World} {m : Mbuf} {frameLen : BitVec 32} (running : o.started = true)
    (length : o.txTemplateLen.toNat = len) (stored : ∀ i < len, o.txTemplate i = template i)
    (reuse : o.txReuse = some m) (agrees : Agrees template offsets len (w.data m)) (short : frameLen.toNat ≤ len) :
    Stamped template offsets len {s with obj := (grantReuse o w m frameLen).1, world := (grantReuse o w m frameLen).2.1,
                                         granted := (grantReuse o w m frameLen).2.2} ∧
      Ready template offsets frameLen
        {s with obj := (grantReuse o w m frameLen).1, world := (grantReuse o w m frameLen).2.1,
                granted := (grantReuse o w m frameLen).2.2} m := by
  obtain ⟨data,sized⟩ := grantReuse_data o w m frameLen
  refine ⟨⟨running,length,stored,fun n shared => ?_⟩,⟨rfl,rfl,sized,fun i inside => ?_⟩⟩
  · cases Option.some.inj (reuse.symm.trans shared)
    exact data ▸ agrees
  · dsimp only
    rw [data]
    exact agrees i (Nat.lt_of_lt_of_le inside short)

private theorem stamped_acquire {m : Mbuf} {frameLen : BitVec 32} (stamped : Stamped template offsets len s)
    (short : frameLen.toNat ≤ len) (moved : step p s (.acquire frameLen (some m)) = some t) :
    Stamped template offsets len t ∧ t.log = s.log ∧ ∃ n, Ready template offsets frameLen t n := by
  obtain ⟨running,length,stored,shared⟩ := stamped
  cases step_action moved with
  | acquire _ pooled =>
    rcases Decidable.em (s.obj.txReuseInline ∧ frameLen ≤ inlineSafeLen) with inline | plain
    · cases reuse : s.obj.txReuse with
      | some n =>
        rw [acquire_shared s.world (some m) inline reuse]
        obtain ⟨still,ready⟩ := stamped_reuse (s := s) running length stored reuse (shared n reuse) short
        exact ⟨still,rfl,n,ready⟩
      | none =>
        rw [acquire_first s.world m inline reuse]
        have agrees : Agrees template offsets len ((stampReuse s.obj s.world m).data m) := by
          intro i inside _
          rw [stampReuse_data,length,if_pos inside]
          exact stored i inside
        obtain ⟨still,ready⟩ := stamped_reuse (s := s) (o := {s.obj with txReuse := some m}) running length stored rfl
            agrees short
        exact ⟨still,rfl,m,ready⟩
    · rw [acquire_fresh s.world m plain]
      refine ⟨⟨running,length,stored,fun n reuse i inside outside => ?_⟩,rfl,m,rfl,rfl,stampFresh_dataLen ..,
          fun i inside _ => ?_⟩
      · dsimp only
        rw [stampFresh_data]
        split
        · exact stored i inside
        · exact shared n reuse i inside outside
      · dsimp only
        rw [stampFresh_data,length,Nat.min_eq_left short,if_pos ⟨rfl,inside⟩]
        exact stored i (Nat.lt_of_lt_of_le inside short)

def fill (w : World) (m : Mbuf) (values : Nat → BitVec 8) : List Nat → World
  | [] => w
  | offset::rest => fill (w.copy m offset [values offset]) m values rest

private theorem fill_data (w : World) (m : Mbuf) (values : Nat → BitVec 8) (writes : List Nat) (i : Nat) :
    (fill w m values writes).data m i = if i ∈ writes then values i else w.data m i := by
  induction writes generalizing w with
  | nil => rfl
  | cons offset rest ih =>
    rw [fill,ih]
    simp only [World.copy,Function.update_self,ByteMemory.write_singleton,List.mem_cons]
    by_cases later : i ∈ rest <;> by_cases here : i = offset <;> simp_all

private theorem fill_others (w : World) {m n : Mbuf} (values : Nat → BitVec 8) (writes : List Nat) (apart : n ≠ m) :
    (fill w m values writes).data n = w.data n := by
  induction writes generalizing w with
  | nil => rfl
  | cons offset rest ih =>
    rw [fill,ih]
    exact Function.update_of_ne apart ..

private theorem fill_dataLen (w : World) (m : Mbuf) (values : Nat → BitVec 8) (writes : List Nat) :
    (fill w m values writes).dataLen = w.dataLen := by
  induction writes generalizing w with
  | nil => rfl
  | cons offset rest ih => exact ih _

private theorem run_writes (p : Params) {s : State} {m : Mbuf} (given : s.granted = some m) (values : Nat → BitVec 8)
    (writes : List Nat) :
    run (step p) s (writes.map (fun o => .write o [values o])) = some {s with world := fill s.world m values writes} := by
  induction writes generalizing s with
  | nil => rfl
  | cons offset rest ih =>
    rw [List.map_cons,run_cons,(Action.write given).enabled]
    exact ih given

@[simp] theorem frames_append (first second : List Obs) : frames (first ++ second) = frames first ++ frames second :=
  List.filterMap_append

theorem stamped_round {r : Round} (stamped : Stamped template offsets len s) (short : r.frameLen.toNat ≤ len)
    (ran : run (step p) s (r.calls offsets) = some t) :
    Stamped template offsets len t ∧ frames t.log = frames s.log ++ [r.content template offsets] := by
  rw [Round.calls,run_append] at ran
  obtain ⟨reaped,late,rest⟩ := Option.bind_eq_some_iff.mp ran
  obtain ⟨still,quiet⟩ := stamped_reaps stamped late
  obtain ⟨held,moved,filling⟩ := run_cons_some rest
  obtain ⟨⟨running,length,stored,shared⟩,silent,m,given,pending,sized,agrees⟩ := stamped_acquire still short moved
  rw [run_append,run_writes p given r.values] at filling
  obtain ⟨last,sent,⟨⟩⟩ := run_cons_some filling
  cases step_action sent with
  | @commit n _ _ waiting room =>
    cases Option.some.inj (pending.symm.trans waiting)
    refine ⟨⟨running,length,stored,fun n reuse i inside outside => ?_⟩,?_⟩
    · rcases eq_or_ne n m with rfl | apart
      · dsimp only
        rw [fill_data,if_neg (fun member => outside (Round.mem_writes.mp member).1)]
        exact shared n reuse i inside outside
      · dsimp only
        rw [fill_others held.world r.values _ apart]
        exact shared n reuse i inside outside
    · have size : ((r.frameLen.setWidth 16).toNat) = r.frameLen.toNat := by
        have wide := held.obj.txTemplateLen.isLt
        rw [BitVec.toNat_setWidth,Nat.mod_eq_of_lt (by omega)]
      have bytes : (fill held.world m r.values (r.writes offsets)).segment m = r.content template offsets := by
        rw [World.segment,fill_dataLen,sized,size,Round.content,ByteMemory.read]
        apply List.map_congr_left
        intro i member
        have inside := List.mem_range.mp member
        rw [Nat.zero_add,fill_data]
        by_cases written : i ∈ offsets
        · rw [if_pos (Round.mem_writes.mpr ⟨written,inside⟩),if_pos written]
        · rw [if_neg (fun chosen => written (Round.mem_writes.mp chosen).1),if_neg written]
          exact agrees i inside written
      dsimp only
      rw [bytes,silent,quiet,frames_append]
      rfl

private theorem stamped_rounds {rounds : List Round} (stamped : Stamped template offsets len s)
    (short : ∀ r ∈ rounds, r.frameLen.toNat ≤ len)
    (ran : run (step p) s (rounds.flatMap (Round.calls offsets)) = some t) :
    frames t.log = frames s.log ++ rounds.map (Round.content template offsets) := by
  induction rounds generalizing s with
  | nil =>
    cases Option.some.inj ran
    simp
  | cons r rest ih =>
    rw [List.flatMap_cons,run_append] at ran
    obtain ⟨next,here,later⟩ := Option.bind_eq_some_iff.mp ran
    rw [List.forall_mem_cons] at short
    obtain ⟨still,sent⟩ := stamped_round stamped short.1 here
    rw [ih still short.2 later,sent]
    simp

end

def bytesOf (frameTemplate : List (BitVec 8)) : ByteMemory := fun i => frameTemplate[i]?.getD 0

private theorem stamped_prefilled {p : Params} {frameTemplate : List (BitVec 8)} (offsets : List Nat) {ifname : String}
    {lcore : Int} {w : World} {on : Bool} {port : BitVec 16} {s : State}
    (ran : run (step p) (start ifname lcore w) [.setTxInlineReuse on,.init port,.prefillRing frameTemplate] = some s) :
    Stamped (bytesOf frameTemplate) offsets (min frameTemplate.length p.maxFrame.toNat) s ∧ s.log = [] := by
  cases Option.some.inj ran
  have fits : min frameTemplate.length p.maxFrame.toNat < 2^16 := by
    have wide := p.maxFrame.isLt
    omega
  refine ⟨⟨rfl,?_,fun i inside => ?_,nofun⟩,rfl⟩
  · simpa [prefillRing] using fits
  · have first : i < min frameTemplate.length p.maxFrame.toNat := inside
    simp only [prefillRing,ByteMemory.write,bytesOf,Nat.zero_le,if_true,Nat.sub_zero,List.getElem?_take,if_pos first]
    rw [List.getElem?_eq_getElem (by omega)]
    rfl

/-- Both modes transmit the same bytes, frame by frame, whatever the pool hands out and
whenever completions are reaped. -/
theorem inline_reuse_sends_same_frames {p : Params} {frameTemplate : List (BitVec 8)} {offsets : List Nat}
    {ifname otherName : String} {lcore otherCore : Int} {w v : World} {port otherPort : BitVec 16}
    {rounds others : List Round} {t u : State}
    (same : rounds.map (fun r => (r.frameLen,r.values)) = others.map (fun r => (r.frameLen,r.values)))
    (short : ∀ r ∈ rounds, r.frameLen.toNat ≤ min frameTemplate.length p.maxFrame.toNat)
    (reused : run (step p) (start ifname lcore w) ([.setTxInlineReuse true,.init port,.prefillRing frameTemplate] ++
      rounds.flatMap (Round.calls offsets)) = some t)
    (allocated : run (step p) (start otherName otherCore v)
      ([.setTxInlineReuse false,.init otherPort,.prefillRing frameTemplate] ++
        others.flatMap (Round.calls offsets)) = some u) :
    frames t.log = frames u.log ∧ (frames t.log).length = rounds.length := by
  rw [run_append] at reused allocated
  obtain ⟨a,opened,sending⟩ := Option.bind_eq_some_iff.mp reused
  obtain ⟨b,started,posting⟩ := Option.bind_eq_some_iff.mp allocated
  obtain ⟨stamped,empty⟩ := stamped_prefilled offsets opened
  obtain ⟨ready,blank⟩ := stamped_prefilled offsets started
  have bounds : ∀ r ∈ others, r.frameLen.toNat ≤ min frameTemplate.length p.maxFrame.toNat := by
    intro r member
    have listed : (r.frameLen,r.values) ∈ rounds.map (fun r => (r.frameLen,r.values)) :=
      same ▸ List.mem_map_of_mem member
    obtain ⟨twin,found,alike⟩ := List.mem_map.mp listed
    rw [← (Prod.mk.inj alike).1]
    exact short twin found
  have left := stamped_rounds stamped short sending
  have right := stamped_rounds ready bounds posting
  rw [empty] at left
  rw [blank] at right
  -- What a round sends is a function of its length and of the bytes the caller writes.
  have contents : rounds.map (Round.content (bytesOf frameTemplate) offsets) =
      others.map (Round.content (bytesOf frameTemplate) offsets) := by
    have through := congrArg (List.map fun frame : BitVec 32 × (Nat → BitVec 8) =>
      Round.content (bytesOf frameTemplate) offsets ⟨[],frame.1,frame.2,0⟩) same
    rw [List.map_map,List.map_map] at through
    exact through
  refine ⟨?_,?_⟩
  · rw [left,right,contents]
  · rw [left]
    simp [frames]

def dirtyWorld : World := {blankWorld with data := fun _ _ => 255}

def sharedRounds : List Round := [⟨[],4,fun _ => 9,7⟩,⟨[],2,fun _ => 8,8⟩,⟨[],3,fun _ => 7,9⟩]

def freshRounds : List Round := [⟨[],4,fun _ => 9,20⟩,⟨[0],2,fun _ => 8,20⟩,⟨[],3,fun _ => 7,21⟩]

private theorem sharedRounds_short :
    ∀ r ∈ sharedRounds, r.frameLen.toNat ≤ min [1,2,3,4].length labParams.maxFrame.toNat := by
  simp [sharedRounds,labParams]

private theorem sharedRounds_same :
    sharedRounds.map (fun r => (r.frameLen,r.values)) = freshRounds.map (fun r => (r.frameLen,r.values)) := rfl

theorem inline_reuse_sends_three_frames :
    ∃ t u, run (step labParams) (start "enp1s0" 2 blankWorld)
        ([.setTxInlineReuse true,.init 0,.prefillRing [1,2,3,4]] ++ sharedRounds.flatMap (Round.calls [1])) = some t ∧
      run (step labParams) (start "enp1s0" 2 dirtyWorld)
        ([.setTxInlineReuse false,.init 0,.prefillRing [1,2,3,4]] ++ freshRounds.flatMap (Round.calls [1])) = some u ∧
      frames t.log = frames u.log ∧ frames u.log = [[1,9,3,4],[1,8],[1,7,3]] := by
  have reused : run (step labParams) (start "enp1s0" 2 blankWorld)
    ([.setTxInlineReuse true,.init 0,.prefillRing [1,2,3,4]] ++ sharedRounds.flatMap (Round.calls [1])) = some _ := rfl
  have allocated : run (step labParams) (start "enp1s0" 2 dirtyWorld)
    ([.setTxInlineReuse false,.init 0,.prefillRing [1,2,3,4]] ++ freshRounds.flatMap (Round.calls [1])) = some _ := rfl
  exact ⟨_,_,reused,allocated,
    (inline_reuse_sends_same_frames sharedRounds_same sharedRounds_short reused allocated).1,rfl⟩

end Abtrda3.DpdkTemplate
