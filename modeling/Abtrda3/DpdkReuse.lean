import Abtrda3.DpdkReceive
import Mathlib.Data.List.Perm.Basic

/-! The transmit side of the DPDK port when one mbuf is sent again and again. Its
reference count is raised at an acquire and lowered by the driver's late completions; its
bytes carry over from send to send, while the ordinary path stamps a fresh mbuf. The mbufs
of the receive side are none of those the transmit side owns. -/
namespace Abtrda3.DpdkReuse
open Abtrda3.Semantics Abtrda3.Semantics.Machine Abtrda3.Dpdk Abtrda3.DpdkReceive

def Sending : Call → Prop
  | .tryReceive _ | .release | .arrive .. | .shutdown => False
  | _ => True

/-- The shared mbuf: references left once every send in flight is reaped stay above what
the next send and a full ring of completions can take. -/
structure Counted (p : Params) (s : State) (m : Mbuf) : Prop where
  kept : m ∈ s.world.out
  lag : s.inFlight.count m ≤ p.nbTxDesc.toNat
  low : refcntLow.toNat + s.inFlight.count m ≤
    (s.world.refcnt m).toNat + p.nbTxDesc.toNat + if s.granted = some m then 0 else 1
  high : (s.world.refcnt m).toNat < refcntLow.toNat + refcntTopup.toNat

/-- An mbuf of the ordinary path has one reference and one owner. -/
structure Single (s : State) (m : Mbuf) : Prop where
  kept : m ∈ s.world.out
  once : s.world.refcnt m = 1
  owner : s.inFlight.count m + (if s.obj.pendingTx = some m then 1 else 0) ≤ 1

structure Sound (p : Params) (s : State) : Prop where
  shared : ∀ m, s.obj.txReuse = some m → Counted p s m
  others : ∀ m, s.obj.txReuse ≠ some m → m ∈ s.inFlight ∨ s.obj.pendingTx = some m → Single s m
  granted : ∀ m, s.granted = some m → s.obj.pendingTx = some m

theorem Sound.absent {p : Params} {s : State} (sound : Sound p s) {m : Mbuf} (pooled : m ∉ s.world.out) :
    s.obj.txReuse ≠ some m ∧ s.inFlight.count m = 0 ∧ s.obj.pendingTx ≠ some m := by
  have unset : s.obj.txReuse ≠ some m := fun shared => pooled (sound.shared m shared).kept
  have idle : ¬(m ∈ s.inFlight ∨ s.obj.pendingTx = some m) := fun held => pooled (sound.others m unset held).kept
  rw [not_or] at idle
  exact ⟨unset,List.count_eq_zero.mpr idle.1,idle.2⟩

private theorem refcntLow_toNat : refcntLow.toNat = 8192 := rfl

private theorem refcntTopup_toNat : refcntTopup.toNat = 16384 := rfl

/-- After the check of an acquire the count is at least the low mark, and the top-up did
not wrap. -/
theorem grantReuse_world (o : Port) (w : World) (m : Mbuf) (frameLen : BitVec 32) :
    ∃ count, (grantReuse o w m frameLen).2.1 = (w.refcntSet m count).setLen m frameLen ∧
      refcntLow.toNat ≤ count.toNat ∧
      (count = w.refcnt m ∨
        (w.refcnt m).toNat < refcntLow.toNat ∧ count.toNat = (w.refcnt m).toNat + refcntTopup.toNat) := by
  rcases Decidable.em (w.refcnt m < refcntLow) with below | above
  · have small : (w.refcnt m).toNat < refcntLow.toNat := below
    have sum : (w.refcnt m + refcntTopup).toNat = (w.refcnt m).toNat + refcntTopup.toNat := by
      rw [BitVec.toNat_add,Nat.mod_eq_of_lt]
      rw [refcntLow_toNat] at small
      rw [refcntTopup_toNat]
      omega
    refine ⟨w.refcnt m + refcntTopup,by simp [grantReuse,below,World.refcntUpdate],?_,.inr ⟨small,sum⟩⟩
    rw [sum,refcntLow_toNat,refcntTopup_toNat]
    omega
  · refine ⟨w.refcnt m,by simp [grantReuse,above,World.refcntSet],Nat.le_of_not_lt above,.inl rfl⟩

private theorem sound_grant {p : Params} (s : State) {o : Port} {w : World} {m : Mbuf} (frameLen : BitVec 32)
    (reuse : o.txReuse = some m) (kept : m ∈ w.out) (lag : s.inFlight.count m ≤ p.nbTxDesc.toNat)
    (high : (w.refcnt m).toNat < refcntLow.toNat + refcntTopup.toNat)
    (others : ∀ n ∈ s.inFlight, n ≠ m → n ∈ w.out ∧ w.refcnt n = 1 ∧ s.inFlight.count n ≤ 1) :
    Sound p {s with obj := (grantReuse o w m frameLen).1, world := (grantReuse o w m frameLen).2.1,
                    granted := (grantReuse o w m frameLen).2.2} := by
  obtain ⟨count,world,above,origin⟩ := grantReuse_world o w m frameLen
  rw [world]
  refine ⟨fun n shared => ?_,fun n apart held => ?_,fun n given => given⟩
  · cases Option.some.inj (reuse.symm.trans shared)
    have now : (((w.refcntSet m count).setLen m frameLen).refcnt m) = count := Function.update_self ..
    refine ⟨kept,lag,?_,?_⟩
    · dsimp only
      rw [now]
      omega
    · dsimp only
      rw [now]
      rcases origin with rfl | ⟨small,sum⟩
      · exact high
      · omega
  · have different : n ≠ m := fun same => apart (same ▸ reuse)
    have pending : (some m : Option Mbuf) ≠ some n := fun same => different (Option.some.inj same).symm
    have flying : n ∈ s.inFlight := held.resolve_right pending
    obtain ⟨out,one,once⟩ := others n flying different
    refine ⟨out,(Function.update_of_ne different ..).trans one,?_⟩
    simpa [grantReuse,Ne.symm different] using once

theorem Sound.flying {p : Params} {s : State} (sound : Sound p s) {n : Mbuf} (member : n ∈ s.inFlight)
    (apart : s.obj.txReuse ≠ some n) : n ∈ s.world.out ∧ s.world.refcnt n = 1 ∧ s.inFlight.count n ≤ 1 := by
  obtain ⟨kept,once,owner⟩ := sound.others n apart (.inl member)
  exact ⟨kept,once,by omega⟩

theorem counted_keep {p : Params} {s t : State} {m : Mbuf} (counted : Counted p s m) (kept : m ∈ t.world.out)
    (same : t.world.refcnt m = s.world.refcnt m) (flight : t.inFlight = s.inFlight)
    (given : t.granted = s.granted ∨ t.granted ≠ some m) : Counted p t m := by
  obtain ⟨-,lag,low,high⟩ := counted
  refine ⟨kept,flight ▸ lag,?_,same ▸ high⟩
  rw [flight,same]
  rcases given with before | other
  · rw [before]
    exact low
  · rw [if_neg other]
    refine Nat.le_trans low (Nat.add_le_add_left ?_ _)
    split <;> simp

private theorem stampReuse_counts (o : Port) (w : World) (m : Mbuf) :
    (stampReuse o w m).out = m::w.out ∧
      (stampReuse o w m).refcnt = Function.update (Function.update w.refcnt m 1) m refcntTopup := by
  unfold stampReuse
  dsimp only
  split <;> exact ⟨rfl,rfl⟩

private theorem stampFresh_counts (o : Port) (w : World) (m : Mbuf) (frameLen : BitVec 32) :
    (stampFresh o w m frameLen).out = m::w.out ∧
      (stampFresh o w m frameLen).refcnt = Function.update w.refcnt m 1 := by
  unfold stampFresh
  dsimp only
  split <;> exact ⟨rfl,rfl⟩

private theorem sound_first {p : Params} {s : State} (sound : Sound p s) (frameLen : BitVec 32) {m : Mbuf}
    (unset : s.obj.txReuse = none) (away : m ∉ s.world.out) :
    Sound p {s with
      obj := (grantReuse {s.obj with txReuse := some m} (stampReuse s.obj s.world m) m frameLen).1,
      world := (grantReuse {s.obj with txReuse := some m} (stampReuse s.obj s.world m) m frameLen).2.1,
      granted := (grantReuse {s.obj with txReuse := some m} (stampReuse s.obj s.world m) m frameLen).2.2} := by
  obtain ⟨out,counts⟩ := stampReuse_counts s.obj s.world m
  refine sound_grant s frameLen rfl ?_ ?_ ?_ fun n member apart => ?_
  · rw [out]
    exact List.mem_cons_self ..
  · rw [(sound.absent away).2.1]
    exact Nat.zero_le _
  · rw [counts,Function.update_self]
    exact Nat.lt_add_of_pos_left (by decide)
  · obtain ⟨kept,one,once⟩ := sound.flying member (by rw [unset]; exact nofun)
    rw [out,counts,Function.update_of_ne apart,Function.update_of_ne apart]
    exact ⟨List.mem_cons_of_mem m kept,one,once⟩

private theorem sound_fresh {p : Params} {s : State} (sound : Sound p s) (frameLen : BitVec 32) {m : Mbuf}
    (away : m ∉ s.world.out) :
    Sound p {s with obj := {s.obj with pendingTx := some m}, world := stampFresh s.obj s.world m frameLen,
                    granted := some m} := by
  obtain ⟨unset,zero,idle⟩ := sound.absent away
  obtain ⟨out,counts⟩ := stampFresh_counts s.obj s.world m frameLen
  refine ⟨fun n shared => ?_,fun n apart held => ?_,fun n given => given⟩
  · have counted := sound.shared n shared
    have different : n ≠ m := fun same => away (same ▸ counted.kept)
    refine counted_keep counted ?_ ?_ rfl (.inr (by simpa using Ne.symm different))
    · exact out ▸ List.mem_cons_of_mem m counted.kept
    · exact (congrFun counts n).trans (Function.update_of_ne different ..)
  · rcases eq_or_ne n m with rfl | different
    · refine ⟨out ▸ List.mem_cons_self ..,(congrFun counts n).trans (Function.update_self ..),?_⟩
      simp [zero]
    · have flying := held.resolve_right (by simpa using Ne.symm different)
      obtain ⟨kept,one,once⟩ := sound.flying flying apart
      refine ⟨out ▸ List.mem_cons_of_mem m kept,?_,by simpa [Ne.symm different] using once⟩
      exact (congrFun counts n).trans ((Function.update_of_ne different ..).trans one)

private theorem sound_acquire {p : Params} {s : State} (sound : Sound p s) (frameLen : BitVec 32) {allocated : Option Mbuf}
    (pooled : inPool s.world allocated) :
    Sound p {s with obj := (acquire s.obj s.world frameLen allocated).1,
                    world := (acquire s.obj s.world frameLen allocated).2.1,
                    granted := (acquire s.obj s.world frameLen allocated).2.2} := by
  rcases Decidable.em (s.obj.txReuseInline ∧ frameLen ≤ inlineSafeLen) with inline | plain
  · cases shared : s.obj.txReuse with
    | some m =>
      rw [acquire_shared s.world allocated inline shared]
      have counted := sound.shared m shared
      refine sound_grant s frameLen shared counted.kept counted.lag counted.high fun n member apart => ?_
      exact sound.flying member (by simpa [shared] using Ne.symm apart)
    | none =>
      cases allocated with
      | none =>
        rw [acquire_refused s.world inline shared]
        refine ⟨fun m set => counted_keep (sound.shared m set) (sound.shared m set).kept rfl rfl (.inr nofun),?_,nofun⟩
        intro m apart held
        obtain ⟨kept,once,owner⟩ := sound.others m apart held
        exact ⟨kept,once,owner⟩
      | some m =>
        rw [acquire_first s.world m inline shared]
        exact sound_first sound frameLen shared (pooled m rfl)
  · cases allocated with
    | none =>
      rw [acquire_failed s.world plain]
      refine ⟨fun m set => counted_keep (sound.shared m set) (sound.shared m set).kept rfl rfl (.inr nofun),?_,nofun⟩
      intro m apart held
      obtain ⟨kept,one,once⟩ := sound.flying (held.resolve_right nofun) apart
      exact ⟨kept,one,by simpa using once⟩
    | some m =>
      rw [acquire_fresh s.world m plain]
      exact sound_fresh sound frameLen (pooled m rfl)

private theorem sound_commit {p : Params} {s : State} (sound : Sound p s) {m : Mbuf} (given : s.granted ≠ none)
    (pending : s.obj.pendingTx = some m) (room : s.inFlight.count m < p.nbTxDesc.toNat) (log : List Obs) :
    Sound p {s with obj := {s.obj with pendingTx := none}, granted := none, inFlight := s.inFlight ++ [m], log := log} := by
  refine ⟨fun n shared => ?_,fun n apart held => ?_,nofun⟩
  · obtain ⟨kept,lag,low,high⟩ := sound.shared n shared
    rcases eq_or_ne m n with rfl | different
    · obtain ⟨g,grant⟩ := Option.ne_none_iff_exists'.mp given
      cases Option.some.inj ((sound.granted g grant).symm.trans pending)
      rw [if_pos grant] at low
      exact ⟨kept,by simp only [List.count_append,List.count_singleton_self]; omega,
        by simp only [List.count_append,List.count_singleton_self]; exact Nat.succ_le_succ low,high⟩
    · have same : (s.inFlight ++ [m]).count n = s.inFlight.count n := by
        simp [List.count_append,different]
      refine ⟨kept,by rw [same]; exact lag,?_,high⟩
      dsimp only
      rw [same,if_neg nofun]
      refine Nat.le_trans low (Nat.add_le_add_left ?_ _)
      split <;> simp
  · rcases eq_or_ne m n with rfl | different
    · obtain ⟨kept,once,owner⟩ := sound.others m apart (.inr pending)
      rw [if_pos pending] at owner
      exact ⟨kept,once,by simpa [List.count_append] using owner⟩
    · have flying : n ∈ s.inFlight := by
        rcases held with member | none
        · simpa [Ne.symm different] using member
        · cases none
      obtain ⟨kept,one,once⟩ := sound.flying flying apart
      exact ⟨kept,one,by simpa [List.count_append,List.count_singleton,different] using once⟩

private theorem count_eraseIdx {flight : List Mbuf} {position : Nat} {m : Mbuf} (flying : flight[position]? = some m)
    (n : Mbuf) :
    flight.count n = (flight.eraseIdx position).count n + if m = n then 1 else 0 := by
  obtain ⟨inside,rfl⟩ := List.getElem?_eq_some_iff.mp flying
  rw [← (List.getElem_cons_eraseIdx_perm inside).count_eq n,List.count_cons]
  simp

theorem reap_refcnt (w : World) (m : Mbuf) : (reap w m).refcnt = Function.update w.refcnt m (w.refcnt m - 1) := by
  unfold reap
  dsimp only
  split <;> rfl

private theorem reap_out (w : World) (m : Mbuf) : (reap w m).out = if w.refcnt m = 1 then w.out.erase m else w.out := by
  unfold reap
  split <;> rfl

theorem reap_other (world : World) {m n : Mbuf} (different : m ≠ n) :
    (reap world m).refcnt n = world.refcnt n ∧ (n ∈ world.out → n ∈ (reap world m).out) := by
  constructor
  · rw [reap_refcnt,Function.update_of_ne (Ne.symm different)]
  · intro kept
    rw [reap_out]
    split
    · exact (List.mem_erase_of_ne (Ne.symm different)).mpr kept
    · exact kept

private theorem sound_reap {p : Params} {s : State} (few : p.nbTxDesc.toNat + 1 < refcntLow.toNat) (sound : Sound p s)
    {position : Nat} {m : Mbuf} (flying : s.inFlight[position]? = some m) :
    Sound p {s with world := reap s.world m, inFlight := s.inFlight.eraseIdx position} := by
  have counts := count_eraseIdx flying
  have member := List.mem_of_getElem? flying
  have self := counts m
  rw [if_pos rfl] at self
  refine ⟨fun n shared => ?_,fun n apart held => ?_,sound.granted⟩
  · obtain ⟨kept,lag,low,high⟩ := sound.shared n shared
    have here := counts n
    rcases eq_or_ne m n with rfl | different
    · have more : 2 ≤ (s.world.refcnt m).toNat := by
        split at low <;> omega
      have less : (s.world.refcnt m - 1).toNat = (s.world.refcnt m).toNat - 1 := by bv_omega
      have now : ((reap s.world m).refcnt m).toNat = (s.world.refcnt m).toNat - 1 := by
        rw [reap_refcnt,Function.update_self,less]
      refine ⟨?_,?_,?_,?_⟩
      · rw [reap_out,if_neg (by bv_omega)]
        exact kept
      · dsimp only
        omega
      · dsimp only
        omega
      · dsimp only
        omega
    · rw [if_neg different] at here
      obtain ⟨now,out⟩ := reap_other s.world different
      refine ⟨out kept,?_,?_,now ▸ high⟩
      · dsimp only
        omega
      · dsimp only
        rw [now]
        omega
  · have here := counts n
    have before : n ∈ s.inFlight ∨ s.obj.pendingTx = some n := held.imp_left (fun left => (List.eraseIdx_subset) left)
    obtain ⟨kept,once,owner⟩ := sound.others n apart before
    rcases eq_or_ne m n with rfl | different
    · rw [self] at owner
      rcases held with left | pending
      · have some : 0 < (s.inFlight.eraseIdx position).count m := List.count_pos_iff.mpr left
        omega
      · rw [if_pos pending] at owner
        omega
    · rw [if_neg different] at here
      obtain ⟨now,out⟩ := reap_other s.world different
      refine ⟨out kept,now.trans once,?_⟩
      dsimp only
      omega

def Owned (s : State) (m : Mbuf) : Prop := s.obj.txReuse = some m ∨ m ∈ s.inFlight ∨ s.obj.pendingTx = some m

theorem Sound.owned {p : Params} {s : State} (sound : Sound p s) {m : Mbuf} (owned : Owned s m) : m ∈ s.world.out := by
  rcases Decidable.em (s.obj.txReuse = some m) with shared | apart
  · exact (sound.shared m shared).kept
  · exact (sound.others m apart (owned.resolve_left apart)).kept

theorem sound_frame {p : Params} {s t : State} (sound : Sound p s) (reuse : t.obj.txReuse = s.obj.txReuse)
    (pending : t.obj.pendingTx = s.obj.pendingTx) (out : ∀ m, Owned s m → m ∈ s.world.out → m ∈ t.world.out)
    (refcnt : ∀ m, Owned s m → t.world.refcnt m = s.world.refcnt m) (granted : t.granted = s.granted)
    (flight : t.inFlight = s.inFlight) : Sound p t := by
  refine ⟨fun m shared => ?_,fun m apart held => ?_,fun m given => ?_⟩
  · rw [reuse] at shared
    have counted := sound.shared m shared
    exact counted_keep counted (out m (.inl shared) counted.kept) (refcnt m (.inl shared)) flight (.inl granted)
  · rw [reuse] at apart
    rw [flight,pending] at held
    obtain ⟨kept,once,owner⟩ := sound.others m apart held
    exact ⟨out m (.inr held) kept,(refcnt m (.inr held)).trans once,by rw [flight,pending]; exact owner⟩
  · rw [pending]
    exact sound.granted m (granted ▸ given)

private theorem sound_step {p : Params} {s t : State} {call : Call} (few : p.nbTxDesc.toNat + 1 < refcntLow.toNat)
    (sound : Sound p s) (sending : Sending call) (moved : step p s call = some t) : Sound p t := by
  cases step_action moved with
  | init stopped fresh => exact sound_frame sound rfl rfl (fun _ _ kept => kept) (fun _ _ => rfl) rfl rfl
  | setTxInlineReuse stopped => exact sound_frame sound rfl rfl (fun _ _ kept => kept) (fun _ _ => rfl) rfl rfl
  | prefillRing => exact sound_frame sound rfl rfl (fun _ _ kept => kept) (fun _ _ => rfl) rfl rfl
  | acquire running pooled => exact sound_acquire sound _ pooled
  | write given => exact sound_frame sound rfl rfl (fun _ _ kept => kept) (fun _ _ => rfl) rfl rfl
  | commit running given pending room => exact sound_commit sound given pending room _
  | reap flying => exact sound_reap few sound flying
  | _ => exact sending.elim

/-- The mbufs of the burst array, and of the NIC queue of a port. -/
def rxMbufs (s : State) : Option (BitVec 16) → List Mbuf
  | none => undelivered s.obj
  | some port => s.world.nic port

/-- Every mbuf of the receive side is at one place and out of the pool, and the transmit
side does not own it. -/
structure Stocked (s : State) : Prop where
  once : ∀ place, (rxMbufs s place).Nodup
  single : ∀ {here there m}, m ∈ rxMbufs s here → m ∈ rxMbufs s there → here = there
  kept : ∀ {place m}, m ∈ rxMbufs s place → m ∈ s.world.out
  apart : ∀ {place m}, m ∈ rxMbufs s place → ¬ Owned s m

theorem stocked_frame {s t : State} (stocked : Stocked s) (fewer : ∀ place, (rxMbufs t place).Sublist (rxMbufs s place))
    (kept : ∀ place m, m ∈ rxMbufs t place → ¬ Owned s m → m ∈ s.world.out → m ∈ t.world.out)
    (apart : ∀ m, m ∈ s.world.out → ¬ Owned s m → ¬ Owned t m) : Stocked t where
  once place := (stocked.once place).sublist (fewer place)
  single {one other _} here there := stocked.single ((fewer one).mem here) ((fewer other).mem there)
  kept {place m} member :=
    kept place m member (stocked.apart ((fewer place).mem member)) (stocked.kept ((fewer place).mem member))
  apart {place m} member := apart m (stocked.kept ((fewer place).mem member)) (stocked.apart ((fewer place).mem member))

theorem rxMbufs_congr {s t : State} (queue : undelivered t.obj = undelivered s.obj) (nic : t.world.nic = s.world.nic)
    (place : Option (BitVec 16)) : (rxMbufs t place).Sublist (rxMbufs s place) := by
  cases place with
  | none =>
    change (undelivered t.obj).Sublist _
    rw [queue]
    exact List.Sublist.refl _
  | some port =>
    change (t.world.nic port).Sublist _
    rw [nic]
    exact List.Sublist.refl _

private theorem stampFresh_nic (o : Port) (w : World) (m : Mbuf) (frameLen : BitVec 32) :
    (stampFresh o w m frameLen).nic = w.nic := by
  unfold stampFresh
  dsimp only
  split <;> rfl

private theorem grantReuse_nic (o : Port) (w : World) (m : Mbuf) (frameLen : BitVec 32) :
    (grantReuse o w m frameLen).2.1.nic = w.nic := by
  unfold grantReuse
  dsimp only
  split <;> rfl

private theorem stampReuse_nic (o : Port) (w : World) (m : Mbuf) : (stampReuse o w m).nic = w.nic := by
  unfold stampReuse
  dsimp only
  split <;> rfl

private theorem grantReuse_out (o : Port) (w : World) (m : Mbuf) (frameLen : BitVec 32) :
    (grantReuse o w m frameLen).2.1.out = w.out := by
  unfold grantReuse
  dsimp only
  split <;> rfl

/-- What an acquire does to the mbufs: it may take one from the pool, and only that one or
one it had before can become its own. -/
theorem acquire_mbufs (o : Port) (w : World) (frameLen : BitVec 32) (allocated : Option Mbuf) :
    (acquire o w frameLen allocated).2.1.nic = w.nic ∧
      (∀ m ∈ w.out, m ∈ (acquire o w frameLen allocated).2.1.out) ∧
      (∀ m, (acquire o w frameLen allocated).1.txReuse = some m → o.txReuse = some m ∨ allocated = some m) ∧
      ∀ m, (acquire o w frameLen allocated).1.pendingTx = some m →
        o.pendingTx = some m ∨ o.txReuse = some m ∨ allocated = some m := by
  rcases Decidable.em (o.txReuseInline ∧ frameLen ≤ inlineSafeLen) with inline | plain
  · cases shared : o.txReuse with
    | some m =>
      rw [acquire_shared w allocated inline shared]
      refine ⟨grantReuse_nic .., fun n kept => ?_,fun n same => .inl (shared.symm.trans same),
          fun n same => .inr (.inl same)⟩
      rw [grantReuse_out]
      exact kept
    | none =>
      cases allocated with
      | none =>
        rw [acquire_refused w inline shared]
        exact ⟨rfl,fun _ kept => kept,fun n same => .inl (shared.symm.trans same),fun n same => .inl same⟩
      | some m =>
        rw [acquire_first w m inline shared]
        refine ⟨(grantReuse_nic ..).trans (stampReuse_nic ..),fun n kept => ?_,fun n same => .inr same,
          fun n same => .inr (.inr same)⟩
        rw [grantReuse_out,(stampReuse_counts o w m).1]
        exact List.mem_cons_of_mem m kept
  · cases allocated with
    | none =>
      rw [acquire_failed w plain]
      exact ⟨rfl,fun _ kept => kept,fun n same => .inl same,nofun⟩
    | some m =>
      rw [acquire_fresh w m plain]
      refine ⟨stampFresh_nic ..,fun n kept => ?_,fun n same => .inl same,fun n same => .inr (.inr same)⟩
      rw [(stampFresh_counts o w m frameLen).1]
      exact List.mem_cons_of_mem m kept

private theorem stocked_acquire {s : State} (stocked : Stocked s) (frameLen : BitVec 32) {allocated : Option Mbuf}
    (pooled : inPool s.world allocated) :
    Stocked {s with obj := (acquire s.obj s.world frameLen allocated).1,
                    world := (acquire s.obj s.world frameLen allocated).2.1,
                    granted := (acquire s.obj s.world frameLen allocated).2.2} := by
  obtain ⟨nic,out,reuse,pending⟩ := acquire_mbufs s.obj s.world frameLen allocated
  obtain ⟨pendingTx,txReuse,same,-⟩ := acquire_obj s.obj s.world frameLen allocated
  refine stocked_frame stocked (rxMbufs_congr (undelivered_congr ?_ ?_ ?_) nic) (fun _ m _ _ kept => out m kept) ?_
  · rw [same]
  · rw [same]
  · rw [same]
  · intro m kept apart owned
    have fresh : allocated ≠ some m := fun taken => pooled m taken kept
    rcases owned with shared | flying | waits
    · exact (reuse m shared).elim (fun before => apart (.inl before)) fresh
    · exact apart (.inr (.inl flying))
    · rcases pending m waits with before | shared | taken
      · exact apart (.inr (.inr before))
      · exact apart (.inl shared)
      · exact fresh taken

private theorem stocked_reap {s : State} (stocked : Stocked s) {position : Nat} {m : Mbuf}
    (flying : s.inFlight[position]? = some m) :
    Stocked {s with world := reap s.world m, inFlight := s.inFlight.eraseIdx position} := by
  have nic : (reap s.world m).nic = s.world.nic := by
    unfold reap
    dsimp only
    split <;> rfl
  refine stocked_frame stocked (rxMbufs_congr rfl nic) (fun _ n _ apart kept => ?_) (fun n _ apart owned => ?_)
  · have different : m ≠ n := fun same => apart (.inr (.inl (same ▸ List.mem_of_getElem? flying)))
    exact (reap_other s.world different).2 kept
  · exact apart (owned.imp_right (fun rest => rest.imp_left (fun left => List.eraseIdx_subset left)))

private theorem stocked_tryReceive {p : Params} {s : State} (filled : Filled p s.obj) (stocked : Stocked s) (ready : Nat) :
    Stocked {s with obj := (tryReceive p s.obj s.world ready).1, world := (tryReceive p s.obj s.world ready).2.1,
                    held := (tryReceive p s.obj s.world ready).1.pendingRx,
                    log := s.log ++ (tryReceive p s.obj s.world ready).2.2} := by
  cases left : undelivered s.obj with
  | cons m rest =>
    rw [tryReceive_repeats s.world ready filled left]
    exact stocked_frame stocked (rxMbufs_congr rfl rfl) (fun _ _ _ _ kept => kept) (fun _ _ apart => apart)
  | nil =>
    rw [tryReceive_polls s.world ready filled left]
    have queue := undelivered_rxTaken p s.obj s.world ready (s.obj.rxBurst.drop (rxTaken p s.obj s.world ready).length)
    have whole := rxTaken_append_drop p s.obj s.world ready
    generalize rxTaken p s.obj s.world ready = taken at *
    have nodup : (taken ++ (s.world.nic s.obj.port).drop taken.length).Nodup := whole.symm ▸ stocked.once (some s.obj.port)
    obtain ⟨first,-,disjoint⟩ := List.nodup_append.mp nodup
    have fewer (port : BitVec 16) : (Function.update s.world.nic s.obj.port
        ((s.world.nic s.obj.port).drop taken.length) port).Sublist (s.world.nic port) := by
      rcases eq_or_ne port s.obj.port with rfl | other
      · rw [Function.update_self]
        exact List.drop_sublist _ _
      · rw [Function.update_of_ne other]
    have mem_queue (m : Mbuf) := Iff.of_eq (congrArg (m ∈ ·) queue)
    have brought : ∀ m ∈ taken, m ∈ rxMbufs s (some s.obj.port) := by
      intro m member
      change m ∈ s.world.nic s.obj.port
      rw [← whole]
      exact List.mem_append_left _ member
    have waited : ∀ (port : BitVec 16), ∀ m ∈ Function.update s.world.nic s.obj.port
        ((s.world.nic s.obj.port).drop taken.length) port, m ∈ rxMbufs s (some port) :=
      fun port _ member => (fewer port).mem member
    have once_only : ∀ m ∈ taken, ∀ port, m ∉ Function.update s.world.nic s.obj.port
        ((s.world.nic s.obj.port).drop taken.length) port := by
      intro m member port again
      cases stocked.single (brought m member) (waited port m again)
      rw [Function.update_self] at again
      exact disjoint m member m again rfl
    refine ⟨fun place => ?_,fun {one other m} here there => ?_,fun {place m} member => ?_,fun {place m} member => ?_⟩
    · cases place with
      | none => exact (congrArg List.Nodup queue).mpr first
      | some port => exact (stocked.once (some port)).sublist (fewer port)
    · cases one <;> cases other
      · rfl
      · exact absurd there (once_only m ((mem_queue m).mp here) _)
      · exact absurd here (once_only m ((mem_queue m).mp there) _)
      · exact stocked.single (waited _ m here) (waited _ m there)
    · cases place with
      | none => exact stocked.kept (brought m ((mem_queue m).mp member))
      | some port => exact stocked.kept (waited port m member)
    · cases place with
      | none => exact stocked.apart (brought m ((mem_queue m).mp member))
      | some port => exact stocked.apart (waited port m member)

private theorem sound_tryReceive {p : Params} {s : State} (filled : Filled p s.obj) (sound : Sound p s) (ready : Nat) :
    Sound p {s with obj := (tryReceive p s.obj s.world ready).1, world := (tryReceive p s.obj s.world ready).2.1,
                    held := (tryReceive p s.obj s.world ready).1.pendingRx,
                    log := s.log ++ (tryReceive p s.obj s.world ready).2.2} := by
  cases left : undelivered s.obj with
  | cons m rest =>
    rw [tryReceive_repeats s.world ready filled left]
    exact sound_frame sound rfl rfl (fun _ _ kept => kept) (fun _ _ => rfl) rfl rfl
  | nil =>
    rw [tryReceive_polls s.world ready filled left]
    exact sound_frame sound rfl rfl (fun _ _ kept => kept) (fun _ _ => rfl) rfl rfl

private theorem freeMaybe_refcnt (w : World) (pending : Option Mbuf) : (w.freeMaybe pending).refcnt = w.refcnt := by
  cases pending <;> rfl

private theorem mem_freeMaybe {w : World} {pending : Option Mbuf} {m : Mbuf} (apart : pending ≠ some m) (kept : m ∈ w.out) :
    m ∈ (w.freeMaybe pending).out := by
  cases pending with
  | none => exact kept
  | some n =>
    have different : m ≠ n := fun same => apart (congrArg some same.symm)
    exact (List.mem_erase_of_ne different).mpr kept

private theorem stocked_release {p : Params} {s : State} (filled : Filled p s.obj) (holding : s.obj.pendingRx ≠ none)
    (sound : Sound p s) (stocked : Stocked s) :
    Sound p {s with obj := (release s.obj s.world).1, world := (release s.obj s.world).2.1, held := none,
                    log := s.log ++ (release s.obj s.world).2.2} ∧
      Stocked {s with obj := (release s.obj s.world).1, world := (release s.obj s.world).2.1, held := none,
                      log := s.log ++ (release s.obj s.world).2.2} := by
  obtain ⟨m,waits⟩ := Option.ne_none_iff_exists'.mp holding
  obtain ⟨rest,left⟩ := pending_cases filled waits
  have queue := undelivered_release s.world filled left
  have head : m ∈ rxMbufs s none := by
    change m ∈ undelivered s.obj
    rw [left]
    exact List.mem_cons_self ..
  have nodup := stocked.once none
  change (undelivered s.obj).Nodup at nodup
  rw [left,List.nodup_cons] at nodup
  constructor
  · refine sound_frame sound rfl rfl (fun n owned kept => ?_) (fun n _ => ?_) rfl rfl
    · apply mem_freeMaybe _ kept
      rw [waits]
      intro same
      cases Option.some.inj same
      exact stocked.apart head owned
    · exact congrFun (freeMaybe_refcnt s.world s.obj.pendingRx) n
  · refine stocked_frame stocked (fun place => ?_) (fun place n member _ kept => ?_) (fun _ _ apart => apart)
    · cases place with
      | none =>
        change (undelivered (release s.obj s.world).1).Sublist (undelivered s.obj)
        rw [queue,left]
        exact List.sublist_cons_self m rest
      | some port =>
        change ((s.world.freeMaybe s.obj.pendingRx).nic port).Sublist _
        rw [nic_freeMaybe]
        exact List.Sublist.refl _
    · apply mem_freeMaybe _ kept
      rw [waits]
      intro same
      cases Option.some.inj same
      cases place with
      | none =>
        change m ∈ undelivered (release s.obj s.world).1 at member
        rw [queue] at member
        exact nodup.1 member
      | some port =>
        change m ∈ (s.world.freeMaybe s.obj.pendingRx).nic port at member
        rw [nic_freeMaybe] at member
        have there : m ∈ rxMbufs s (some port) := member
        cases stocked.single head there

private theorem sound_arrive {p : Params} {s : State} (sound : Sound p s) {m : Mbuf} (pooled : m ∉ s.world.out)
    (port : BitVec 16) (frame : List (BitVec 8)) : Sound p {s with world := arrive s.world port m frame} := by
  refine sound_frame sound rfl rfl (fun n _ kept => List.mem_cons_of_mem m kept) (fun n owned => ?_) rfl rfl
  have different : n ≠ m := fun same => pooled (same ▸ sound.owned owned)
  exact Function.update_of_ne different ..

private theorem stocked_arrive {p : Params} {s : State} (sound : Sound p s) (stocked : Stocked s) {m : Mbuf}
    (pooled : m ∉ s.world.out) (port : BitVec 16) (frame : List (BitVec 8)) :
    Stocked {s with world := arrive s.world port m frame} := by
  have absent : ∀ place, m ∉ rxMbufs s place := fun place member => pooled (stocked.kept member)
  have queue (place : Option (BitVec 16)) : rxMbufs {s with world := arrive s.world port m frame} place =
      rxMbufs s place ++ if place = some port then [m] else [] := by
    cases place with
    | none => simp [rxMbufs]
    | some other =>
      rcases eq_or_ne other port with rfl | apart
      · simp [rxMbufs,arrive,World.setLen,World.copy,World.alloc]
      · simp [rxMbufs,arrive,apart,World.setLen,World.copy,World.alloc]
  have origin {place : Option (BitVec 16)} {n : Mbuf}
      (member : n ∈ rxMbufs {s with world := arrive s.world port m frame} place) :
      n ∈ rxMbufs s place ∨ (n = m ∧ place = some port) := by
    rw [queue,List.mem_append] at member
    rcases member with old | new
    · exact .inl old
    · split at new
      · next here => exact .inr ⟨List.mem_singleton.mp new,here⟩
      · cases new
  refine ⟨fun place => ?_,fun {one other n} here there => ?_,fun {place n} member => ?_,fun {place n} member owned => ?_⟩
  · rw [queue]
    split
    · rw [List.nodup_append]
      refine ⟨stocked.once place,List.pairwise_singleton _ m,fun n member last isLast same => ?_⟩
      rw [List.mem_singleton.mp isLast] at same
      exact absent place (same ▸ member)
    · rw [List.append_nil]
      exact stocked.once place
  · rcases origin here with old | ⟨rfl,at1⟩
    · rcases origin there with older | ⟨rfl,-⟩
      · exact stocked.single old older
      · exact absurd old (absent _)
    · rcases origin there with older | ⟨-,at2⟩
      · exact absurd older (absent _)
      · exact at1.trans at2.symm
  · rcases origin member with old | ⟨rfl,-⟩
    · exact List.mem_cons_of_mem m (stocked.kept old)
    · exact List.mem_cons_self ..
  · rcases origin member with old | ⟨rfl,-⟩
    · exact stocked.apart old owned
    · exact pooled (sound.owned owned)

private theorem stocked_step {p : Params} {s t : State} {call : Call} (few : p.nbTxDesc.toNat + 1 < refcntLow.toNat)
    (fits : Fits p s) (sound : Sound p s) (stocked : Stocked s) (lasting : call ≠ .shutdown)
    (moved : step p s call = some t) : Sound p t ∧ Stocked t := by
  have sends (sending : Sending call) : Sound p t := sound_step few sound sending moved
  cases step_action moved with
  | tryReceive running => exact ⟨sound_tryReceive fits.filled sound _,stocked_tryReceive fits.filled stocked _⟩
  | release running holding =>
    have pending : s.obj.pendingRx ≠ none := fits.handed running ▸ holding
    exact stocked_release fits.filled pending sound stocked
  | arrive pooled => exact ⟨sound_arrive sound pooled _ _,stocked_arrive sound stocked pooled _ _⟩
  | shutdown => exact absurd rfl lasting
  | acquire running pooled => exact ⟨sends trivial,stocked_acquire stocked _ pooled⟩
  | reap flying => exact ⟨sends trivial,stocked_reap stocked flying⟩
  | commit running given pending room =>
    refine ⟨sends trivial,
      stocked_frame stocked (rxMbufs_congr rfl rfl) (fun _ _ _ _ kept => kept) (fun n _ apart owned => apart ?_)⟩
    rcases owned with shared | flying | waits
    · exact .inl shared
    · rcases List.mem_append.mp flying with before | last
      · exact .inr (.inl before)
      · exact .inr (.inr (List.mem_singleton.mp last ▸ pending))
    · cases waits
  | _ =>
    exact ⟨sends trivial,
      stocked_frame stocked (rxMbufs_congr rfl rfl) (fun _ _ _ _ kept => kept) (fun _ _ apart => apart)⟩

private theorem sound_start (p : Params) (ifname : String) (lcore : Int) (w : World) : Sound p (start ifname lcore w) :=
  ⟨nofun,fun _ _ held => held.elim nofun nofun,nofun⟩

private theorem stocked_start {ifname : String} {lcore : Int} {w : World} (quiet : w.nic = fun _ => []) :
    Stocked (start ifname lcore w) := by
  have empty (place : Option (BitVec 16)) : rxMbufs (start ifname lcore w) place = [] := by
    cases place with
    | none => rfl
    | some port => exact congrFun quiet port
  constructor
  · intro place
    rw [empty]
    exact List.nodup_nil
  · intro here there m member
    rw [empty] at member
    cases member
  · intro place m member
    rw [empty] at member
    cases member
  · intro place m member
    rw [empty] at member
    cases member

private theorem sound_run {p : Params} {ifname : String} {lcore : Int} {w : World} {calls : List Call} {s : State}
    (few : p.nbTxDesc.toNat + 1 < refcntLow.toNat) (lasting : .shutdown ∉ calls)
    (quiet : (w.nic = fun _ => []) ∨ ∀ call ∈ calls, Sending call)
    (ran : run (step p) (start ifname lcore w) calls = some s) : Sound p s := by
  rcases quiet with quiet | sending
  · have admitted : Along (step p) (fun _ call => call ≠ .shutdown) (start ifname lcore w) calls :=
      along_of_forall _ (fun call member same => lasting (same ▸ member))
    refine (run_invariant (fun s => Fits p s ∧ Sound p s ∧ Stocked s) ?_
      ⟨fits_start p ifname lcore w,sound_start p ifname lcore w,stocked_start quiet⟩ admitted ran).2.1
    rintro s call t ⟨fits,sound,stocked⟩ open_ moved
    exact ⟨fits_step fits moved,stocked_step few fits sound stocked open_ moved⟩
  · exact run_invariant (Sound p) (fun _ _ _ sound ok moved => sound_step few sound ok moved)
      (sound_start p ifname lcore w) (along_of_forall _ sending) ran

/-- From its allocation to shutdown the shared mbuf keeps a reference, stays out of the
pool and never gets near the end of the 16-bit range, whatever is received meanwhile. -/
theorem reuse_refcnt_in_range {p : Params} {ifname : String} {lcore : Int} {w : World} {calls : List Call} {s : State}
    {m : Mbuf} (few : p.nbTxDesc.toNat + 1 < refcntLow.toNat) (lasting : .shutdown ∉ calls)
    (quiet : (w.nic = fun _ => []) ∨ ∀ call ∈ calls, Sending call)
    (ran : run (step p) (start ifname lcore w) calls = some s) (shared : s.obj.txReuse = some m) :
    1 ≤ (s.world.refcnt m).toNat ∧ (s.world.refcnt m).toNat < refcntLow.toNat + refcntTopup.toNat ∧
      refcntLow.toNat + refcntTopup.toNat ≤ 65535 ∧ m ∈ s.world.out := by
  obtain ⟨kept,lag,low,high⟩ := (sound_run few lasting quiet ran).shared m shared
  refine ⟨?_,high,by decide,kept⟩
  split at low <;> omega

theorem reuse_refcnt_after_two_sends :
    ∃ s, run (step labParams) (start "enp1s0" 2 blankWorld)
        [.setTxInlineReuse true,.init 0,.acquire 64 (some 7),.commit,.arrive 0 8 [1],.tryReceive 2,.acquire 64 none,.commit,
          .release,.reap 0] = some s ∧
      s.obj.txReuse = some 7 ∧ s.world.refcnt 7 = 16383 ∧ 1 ≤ (s.world.refcnt 7).toNat := by
  have ran : run (step labParams) (start "enp1s0" 2 blankWorld)
      [.setTxInlineReuse true,.init 0,.acquire 64 (some 7),.commit,.arrive 0 8 [1],.tryReceive 2,.acquire 64 none,.commit,
        .release,.reap 0] = some _ := rfl
  exact ⟨_,ran,rfl,rfl,(reuse_refcnt_in_range (by decide) (by decide) (.inl rfl) ran rfl).1⟩

def largestRing : Params := ⟨8191,1,2048,by decide,by decide⟩

def Reaches (p : Params) (s t : State) : Prop :=
  ∃ calls, (∀ call ∈ calls, Sending call) ∧ run (step p) s calls = some t

theorem Reaches.refl (p : Params) (s : State) : Reaches p s s := ⟨[],nofun,rfl⟩

theorem Reaches.trans {p : Params} {s t u : State} (first : Reaches p s t) (second : Reaches p t u) : Reaches p s u := by
  obtain ⟨before,sending,ran⟩ := first
  obtain ⟨after,still,went⟩ := second
  refine ⟨before ++ after,fun call member => ?_,run_trans ran went⟩
  exact (List.mem_append.mp member).elim (sending call) (still call)

theorem Reaches.single {p : Params} {s t : State} {call : Call} (action : Action p s call t) (sending : Sending call) :
    Reaches p s t :=
  ⟨[call],by simpa using sending,run_singleton action.enabled⟩

structure Cycling (s : State) (m : Mbuf) (count lag : Nat) : Prop where
  running : s.obj.started = true
  inline : s.obj.txReuseInline = true
  shared : s.obj.txReuse = some m
  counted : (s.world.refcnt m).toNat = count
  flight : s.inFlight = List.replicate lag m

section
variable {p : Params} {s : State} {m : Mbuf} {count lag : Nat}

theorem cycling_acquire (cycling : Cycling s m count lag) (above : refcntLow.toNat ≤ count) :
    ∃ t, Reaches p s t ∧ Cycling t m count lag ∧ t.granted = some m ∧ t.obj.pendingTx = some m := by
  obtain ⟨running,inline,shared,counted,flight⟩ := cycling
  have path : s.obj.txReuseInline ∧ (64 : BitVec 32) ≤ inlineSafeLen := ⟨inline,by decide⟩
  have plenty : ¬s.world.refcnt m < refcntLow := by
    rw [BitVec.lt_def,counted]
    omega
  have action : Action p s (.acquire 64 none) _ := .acquire running nofun
  rw [acquire_shared s.world none path shared,grantReuse,if_neg plenty] at action
  exact ⟨_,.single action trivial,⟨running,inline,shared,counted,flight⟩,rfl,rfl⟩

theorem cycling_commit (cycling : Cycling s m count lag) (given : s.granted = some m) (pending : s.obj.pendingTx = some m)
    (room : lag < p.nbTxDesc.toNat) : ∃ t, Reaches p s t ∧ Cycling t m count (lag + 1) := by
  obtain ⟨running,inline,shared,counted,flight⟩ := cycling
  have fits : s.inFlight.count m < p.nbTxDesc.toNat := by
    rw [flight,List.count_replicate_self]
    exact room
  refine ⟨_,.single (.commit running (by simp [given]) pending fits) trivial,running,inline,shared,counted,?_⟩
  dsimp only
  rw [flight,List.replicate_succ']

theorem cycling_reap (cycling : Cycling s m (count + 1) (lag + 1)) :
    ∃ t, Reaches p s t ∧ Cycling t m count lag ∧ t.granted = s.granted ∧ t.obj = s.obj := by
  obtain ⟨running,inline,shared,counted,flight⟩ := cycling
  have first : s.inFlight[0]? = some m := by
    rw [flight]
    rfl
  refine ⟨_,.single (.reap first) trivial,⟨running,inline,shared,?_,?_⟩,rfl,rfl⟩
  · dsimp only
    rw [reap_refcnt,Function.update_self]
    bv_omega
  · dsimp only
    rw [flight]
    rfl

theorem cycling_fill (n : Nat) (cycling : Cycling s m count lag) (above : refcntLow.toNat ≤ count)
    (room : lag + n ≤ p.nbTxDesc.toNat) : ∃ t, Reaches p s t ∧ Cycling t m count (lag + n) := by
  induction n with
  | zero => exact ⟨s,.refl p s,cycling⟩
  | succ n ih =>
    obtain ⟨t,before,there⟩ := ih (by omega)
    obtain ⟨u,got,here,given,pending⟩ := cycling_acquire there above
    obtain ⟨v,sent,last⟩ := cycling_commit (p := p) here given pending (by omega)
    exact ⟨v,before.trans (got.trans sent),last⟩

theorem cycling_turn (n : Nat) (cycling : Cycling s m (count + n) (lag + 1)) (above : refcntLow.toNat ≤ count)
    (room : lag < p.nbTxDesc.toNat) : ∃ t, Reaches p s t ∧ Cycling t m count (lag + 1) := by
  induction n generalizing s with
  | zero => exact ⟨s,.refl p s,cycling⟩
  | succ n ih =>
    obtain ⟨t,reaped,there,-,-⟩ := cycling_reap cycling
    obtain ⟨u,got,here,given,pending⟩ := cycling_acquire there (Nat.le_add_right_of_le above)
    obtain ⟨v,sent,last⟩ := cycling_commit here given pending room
    obtain ⟨final,rest,done⟩ := ih last
    exact ⟨final,reaped.trans (got.trans (sent.trans rest)),done⟩

private theorem cycling_drain (n : Nat) (cycling : Cycling s m n n) : ∃ t, Reaches p s t ∧ Cycling t m 0 0 := by
  induction n generalizing s with
  | zero => exact ⟨s,.refl p s,cycling⟩
  | succ n ih =>
    obtain ⟨t,reaped,there,-,-⟩ := cycling_reap cycling
    obtain ⟨final,rest,done⟩ := ih there
    exact ⟨final,reaped.trans rest,done⟩

end

private theorem cycling_opened :
    ∃ s, Reaches largestRing (start "enp1s0" 2 blankWorld) s ∧ Cycling s 7 16384 1 := by
  refine ⟨_,⟨[.setTxInlineReuse true,.init 0,.acquire 64 (some 7),.commit],by simp [Sending],rfl⟩,?_⟩
  exact ⟨rfl,rfl,rfl,rfl,rfl⟩

/-- With one descriptor less than the low mark a completion between the check of an
acquire and its send is one too many: the count of the mbuf in use reaches zero. -/
theorem reuse_refcnt_reaches_zero :
    ∃ calls s, (∀ call ∈ calls, Sending call) ∧ run (step largestRing) (start "enp1s0" 2 blankWorld) calls = some s ∧
      largestRing.nbTxDesc < refcntLow ∧ s.obj.txReuse = some 7 ∧ (s.world.refcnt 7).toNat = 0 := by
  obtain ⟨a,opened,start⟩ := cycling_opened
  obtain ⟨b,filled,full⟩ := cycling_fill (p := largestRing) 8190 start (by decide) (by decide)
  obtain ⟨c,turned,mark⟩ := cycling_turn (p := largestRing) 8192 full (by decide) (by decide)
  obtain ⟨d,got,checked,given,pending⟩ := cycling_acquire mark (by decide)
  obtain ⟨e,reaped,below,same,obj⟩ := cycling_reap checked
  obtain ⟨f,sent,last⟩ := cycling_commit (p := largestRing) below (same.trans given) (obj ▸ pending) (by decide)
  obtain ⟨g,drained,empty⟩ := cycling_drain 8191 last
  obtain ⟨calls,sending,ran⟩ :=
    opened.trans (filled.trans (turned.trans (got.trans (reaped.trans (sent.trans drained)))))
  exact ⟨calls,g,sending,ran,by decide,empty.shared,empty.counted⟩

end Abtrda3.DpdkReuse
