import Abtrda3.EfVi

/-! The transmit side of the ef_vi backend over whole runs: slots are claimed and freed
in ring order, completions of every kind are counted once, and the stamp a poll returns
is the stamp of the send it is numbered after. -/
namespace Abtrda3.EfVi
open Abtrda3.Application Abtrda3.Semantics Abtrda3.Semantics.Machine

/-- From `first` up to `next` the stamps numbered `indices` are returned in order; a
gap before one of them, or at the end, is wider than the stamp ring. -/
def Joined (nb : Nat) : Nat → List Nat → Nat → Prop
  | first, [], next => next = first ∨ first + nb < next
  | first, index::rest, next => (index = first ∨ first + nb < index) ∧ Joined nb (index + 1) rest next

namespace Joined

variable {nb first next : Nat} {indices : List Nat}

theorem later (joined : Joined nb first indices next) {later : Nat} (gap : later = next ∨ next + nb < later) :
    Joined nb first indices later := by
  induction indices generalizing first with
  | nil =>
    simp only [Joined] at joined ⊢
    omega
  | cons index rest ih => exact ⟨joined.1,ih joined.2⟩

theorem snoc (joined : Joined nb first indices next) : Joined nb first (indices ++ [next]) (next + 1) := by
  induction indices generalizing first with
  | nil => exact ⟨joined,.inl rfl⟩
  | cons index rest ih => exact ⟨joined.1,ih joined.2⟩

private theorem first_le (joined : Joined nb first indices next) {index : Nat} (member : index ∈ indices) :
    first ≤ index := by
  induction indices generalizing first with
  | nil => cases member
  | cons head rest ih =>
    have start := joined.1
    rcases List.mem_cons.mp member with rfl | inside
    · omega
    · have := ih joined.2 inside
      omega

private theorem pairwise (joined : Joined nb first indices next) : indices.Pairwise (· < ·) := by
  induction indices generalizing first with
  | nil => exact .nil
  | cons index rest ih => exact .cons (fun _ member => joined.2.first_le member) (ih joined.2)

end Joined

/-- The transmit side when `done` completions are worked off, those of `items` are still
to come, and the stamps numbered `indices` have been returned. -/
structure SendInv (p : Params) (tx : Tx) (items : List (BitVec 32 × BitVec 32)) (done : Nat) (indices : List Nat)
    (next : Nat) : Prop where
  head : tx.head = BitVec.ofNat 32 tx.sent.length
  tail : tx.tail = BitVec.ofNat 32 done
  slots : tx.sent.map Send.slot = WrappingCounter.window 32 p.nbTxBufs 0 tx.sent.length
  seqs : tx.sent.map Send.seq = (List.range tx.sent.length).map (BitVec.ofNat 32)
  reported : tx.stamps.length ≤ tx.sent.length
  ids : items.map Prod.fst = WrappingCounter.window 32 p.nbTxBufs done items.length
  words : items.map Prod.snd = tx.stamps.drop done
  bound : done ≤ tx.stamps.length
  sender : tx.sent ≠ [] ∨ tx.acquired = true → p.hasTx = true
  ring : p.hwTimestamps = true → ∀ n word, n < done → done ≤ n + p.nbTxBufs → tx.stamps[n]? = some word →
    tx.stamp (n % p.nbTxBufs) = packStamp (BitVec.ofNat 32 n) word
  claimed : tx.acquired = true → tx.slot = BitVec.ofNat 32 (tx.sent.length % p.nbTxBufs)
  room : p.tuning = .Generic → tx.sent.length ≤ done + p.nbTxBufs ∧
    (tx.acquired = true → tx.sent.length < done + p.nbTxBufs)
  cursor : tx.tsCursor = BitVec.ofNat 32 next
  joined : Joined p.nbTxBufs 0 indices next
  behind : next ≤ done
  polled : List.Forall₂ (fun index stamp => index < done ∧ stamp.seq = BitVec.ofNat 32 index ∧
    tx.stamps[index]? = some stamp.minor) indices tx.polled

variable {p : Params} {tx : Tx} {items now : List (BitVec 32 × BitVec 32)} {done next : Nat} {indices : List Nat}

theorem txIndex_ofNat (p : Params) (n : Nat) : txIndex p (BitVec.ofNat 32 n) = n % p.nbTxBufs :=
  WrappingCounter.mask_toNat (Nat.le_trans p.txBound.le (by decide)) n

theorem nbTxBufs_pos (p : Params) : 0 < p.nbTxBufs := Nat.two_pow_pos p.txBits

theorem nbTxBufs_le (p : Params) : p.nbTxBufs ≤ 2^15 :=
  Nat.pow_le_pow_right (by decide) (Nat.le_of_lt_succ p.txBound)

namespace SendInv

theorem count (inv : SendInv p tx items done indices next) : done + items.length = tx.stamps.length := by
  have lengths := congrArg List.length inv.words
  have bound := inv.bound
  rw [List.length_map,List.length_drop] at lengths
  omega

private theorem hasTx_of_items (inv : SendInv p tx items done indices next) (some : items ≠ []) : p.hasTx = true := by
  have count := inv.count
  have reported := inv.reported
  have waiting := List.length_pos_of_ne_nil some
  apply inv.sender
  left
  apply List.ne_nil_of_length_pos
  omega

theorem advance (inv : SendInv p tx (now ++ items) done indices next) {stamp : Nat → BitVec 64}
    (ring : p.hwTimestamps = true → ∀ n word, n < done + now.length → done + now.length ≤ n + p.nbTxBufs →
      tx.stamps[n]? = some word → stamp (n % p.nbTxBufs) = packStamp (BitVec.ofNat 32 n) word) :
    SendInv p {tx with stamp := stamp, tail := tx.tail + BitVec.ofNat 32 now.length} items (done + now.length)
      indices next := by
  have count := inv.count
  have ids := inv.ids
  have words := inv.words
  rw [List.length_append] at count
  rw [List.map_append,List.length_append,← WrappingCounter.window_append] at ids
  rw [List.map_append] at words
  refine ⟨inv.head,?_,inv.slots,inv.seqs,inv.reported,?_,?_,?_,inv.sender,ring,inv.claimed,?_,inv.cursor,inv.joined,
    Nat.le_add_right_of_le inv.behind,?_⟩
  · change tx.tail + BitVec.ofNat 32 now.length = _
    rw [inv.tail,BitVec.ofNat_add]
  · exact List.append_inj_right ids (by simp)
  · rw [← List.drop_drop,← words,List.drop_left' (by simp)]
  · change done + now.length ≤ tx.stamps.length
    omega
  · intro generic
    obtain ⟨full,free⟩ := inv.room generic
    refine ⟨?_,?_⟩
    · exact Nat.le_trans full (by omega)
    · intro acquired
      exact Nat.lt_of_lt_of_le (free acquired) (by omega)
  · apply inv.polled.imp
    intro index stamp ⟨old,same⟩
    exact ⟨Nat.lt_add_right _ old,same⟩

theorem complete {id word : BitVec 32} (inv : SendInv p tx ((id,word)::items) done indices next) {entry : BitVec 32}
    (here : txIndex p entry = done % p.nbTxBufs) :
    SendInv p (tx.complete p entry word) items (done + 1) indices next := by
  have count := inv.count
  rw [List.length_cons] at count
  have words := inv.words
  rw [List.map_cons,List.drop_eq_getElem_cons (by omega : done < tx.stamps.length)] at words
  have first : word = tx.stamps[done] := (List.cons.inj words).1
  have one : SendInv p tx ([(id,word)] ++ items) done indices next := inv
  apply one.advance
  intro hw n stamp old near found
  rw [List.length_singleton] at old near
  rw [here]
  rcases Nat.lt_succ_iff_lt_or_eq.mp old with before | rfl
  · rw [Function.update_of_ne (WrappingCounter.mod_ne_of_window before (by omega))]
    exact inv.ring hw n stamp before (by omega) found
  · rw [List.getElem?_eq_getElem (by omega),← first] at found
    rw [Function.update_self,inv.tail,Option.some.inj found]

theorem skip (inv : SendInv p tx (now ++ items) done indices next) (plain : p.hwTimestamps = true → now = []) :
    SendInv p {tx with tail := tx.tail + BitVec.ofNat 32 now.length} items (done + now.length) indices next := by
  apply inv.advance
  intro hw
  rw [plain hw]
  exact inv.ring hw

private theorem completeAll {ids : List (BitVec 32)}
    (inv : SendInv p tx (ids.map (·,kTxStampNone) ++ items) done indices next) :
    SendInv p (ids.foldl (fun tx _ => tx.complete p tx.tail kTxStampNone) tx) items (done + ids.length) indices next := by
  induction ids generalizing tx done with
  | nil => exact inv
  | cons id rest ih =>
    have here : txIndex p tx.tail = done % p.nbTxBufs := by rw [inv.tail,txIndex_ofNat]
    have later := ih (inv.complete here)
    rw [Nat.add_assoc,Nat.add_comm 1] at later
    exact later

theorem head_slot (inv : SendInv p tx items done indices next) :
    tx.head &&& (BitVec.ofNat 32 p.nbTxBufs - 1) = BitVec.ofNat 32 (tx.sent.length % p.nbTxBufs) := by
  have small := nbTxBufs_le p
  have below := Nat.mod_lt tx.sent.length (nbTxBufs_pos p)
  apply BitVec.eq_of_toNat_eq
  change txIndex p tx.head = _
  rw [inv.head,txIndex_ofNat,WrappingCounter.ofNat_toNat_mod]
  exact (Nat.mod_eq_of_lt (by omega)).symm

theorem claim (inv : SendInv p tx items done indices next) (sender : p.hasTx = true)
    (free : p.tuning = .Generic → tx.sent.length < done + p.nbTxBufs) (frameLen : BitVec 32) :
    SendInv p (tx.claim p frameLen) items done indices next := by
  refine ⟨inv.head,inv.tail,inv.slots,inv.seqs,inv.reported,inv.ids,inv.words,inv.bound,fun _ => sender,inv.ring,?_,?_,
    inv.cursor,inv.joined,inv.behind,inv.polled⟩
  · intro _
    exact inv.head_slot
  · intro generic
    exact ⟨(inv.room generic).1,fun _ => free generic⟩

theorem transmitted (inv : SendInv p tx items done indices next) (acquired : tx.acquired = true) :
    SendInv p tx.transmitted items done indices next := by
  have sent : tx.transmitted.sent = tx.sent ++ [⟨tx.slot,tx.head⟩] := rfl
  have length : tx.transmitted.sent.length = tx.sent.length + 1 := by simp [sent]
  refine ⟨?_,inv.tail,?_,?_,?_,inv.ids,inv.words,inv.bound,fun _ => inv.sender (.inr acquired),inv.ring,?_,?_,
    inv.cursor,inv.joined,inv.behind,inv.polled⟩
  · rw [length,← WrappingCounter.ofNat_succ,← inv.head]
    rfl
  · rw [length,sent,WrappingCounter.window_snoc,List.map_append,inv.slots,Nat.zero_add,← inv.claimed acquired]
    rfl
  · rw [length,sent,List.range_succ,List.map_append,List.map_append,inv.seqs,List.map_singleton,List.map_singleton,
      ← inv.head]
  · rw [length]
    exact Nat.le_succ_of_le inv.reported
  · intro free
    cases free
  · intro generic
    refine ⟨?_,?_⟩
    · rw [length]
      exact (inv.room generic).2 acquired
    · intro free
      cases free

private theorem abandoned (inv : SendInv p tx items done indices next) :
    SendInv p {tx with acquired := false} items done indices next := by
  refine ⟨inv.head,inv.tail,inv.slots,inv.seqs,inv.reported,inv.ids,inv.words,inv.bound,?_,inv.ring,?_,?_,inv.cursor,
    inv.joined,inv.behind,inv.polled⟩
  · intro sender
    rcases sender with some | free
    · exact inv.sender (.inl some)
    · cases free
  · intro free
    cases free
  · intro generic
    refine ⟨(inv.room generic).1,?_⟩
    intro free
    cases free

theorem report (inv : SendInv p tx items done indices next)
    (ordered : now.map Prod.fst <+: (tx.sent.drop tx.stamps.length).map Send.slot) :
    SendInv p {tx with stamps := tx.stamps ++ now.map Prod.snd} (items ++ now) done indices next := by
  have count := inv.count
  have length : (tx.stamps ++ now.map Prod.snd).length = tx.stamps.length + now.length := by simp
  rw [List.map_drop,inv.slots,WrappingCounter.window_drop inv.reported,Nat.zero_add] at ordered
  have fits := ordered.length_le
  rw [List.length_map,WrappingCounter.window_length] at fits
  have reported := inv.reported
  have ids := WrappingCounter.window_of_isPrefix ordered
  rw [List.length_map,← count] at ids
  have kept {n : Nat} {word : BitVec 32} (found : tx.stamps[n]? = some word) :
      (tx.stamps ++ now.map Prod.snd)[n]? = some word := by
    obtain ⟨inside,_⟩ := List.getElem?_eq_some_iff.mp found
    rw [List.getElem?_append_left inside,found]
  refine ⟨inv.head,inv.tail,inv.slots,inv.seqs,?_,?_,?_,?_,inv.sender,?_,inv.claimed,inv.room,inv.cursor,inv.joined,
    inv.behind,?_⟩
  · change (tx.stamps ++ now.map Prod.snd).length ≤ tx.sent.length
    omega
  · rw [List.map_append,List.length_append,inv.ids,ids,WrappingCounter.window_append]
  · rw [List.map_append,inv.words,List.drop_append_of_le_length inv.bound]
  · change done ≤ (tx.stamps ++ now.map Prod.snd).length
    omega
  · intro hw n word old near found
    have bound := inv.bound
    apply inv.ring hw n word old near
    rw [← found]
    exact (List.getElem?_append_left (by omega)).symm
  · apply inv.polled.imp
    intro index stamp ⟨old,seq,minor⟩
    exact ⟨old,seq,kept minor⟩

end SendInv

variable {s t : State}

private theorem packStamp_seq (seq minor : BitVec 32) : (packStamp seq minor >>> 32).setWidth 32 = seq := by
  have low := minor.isLt
  have high := seq.isLt
  apply BitVec.eq_of_toNat_eq
  rw [BitVec.toNat_setWidth,BitVec.toNat_ushiftRight,packStamp,packed_toNat,Nat.shiftRight_eq_div_pow]
  omega

private theorem packStamp_minor (seq minor : BitVec 32) : (packStamp seq minor).setWidth 32 = minor := by
  have low := minor.isLt
  apply BitVec.eq_of_toNat_eq
  rw [BitVec.toNat_setWidth,packStamp,packed_toNat]
  omega

def Tx.returnStamp (tx : Tx) (stamp : TxStamp) : Tx :=
  {tx with tsCursor := tx.tsCursor + 1, polled := tx.polled ++ [stamp]}

/-- The cursor stands for the one index of its residue within `2^32` below the tail;
the ring still has that entry unless more than a ring of completions lies above it. -/
theorem pollTxTimestamp_cases (inv : SendInv p s.tx items done indices next) (hw : p.hwTimestamps = true) :
    ∃ index, (index = next ∨ next + 2^32 ≤ index) ∧ BitVec.ofNat 32 index = BitVec.ofNat 32 next ∧
      done < index + 2^32 ∧
      ((index = done ∧ pollTxTimestamp p s = (s,.stamp none)) ∨
        (index < done ∧ done ≤ index + p.nbTxBufs ∧ ∃ word, s.tx.stamps[index]? = some word ∧
          pollTxTimestamp p s = ({s with tx := s.tx.returnStamp ⟨BitVec.ofNat 32 index,word⟩},
            .stamp (some ⟨BitVec.ofNat 32 index,word⟩))) ∨
        (index + p.nbTxBufs < done ∧ (pollTxTimestamp p s).2 = .stamp none ∧
          ∃ stats, (pollTxTimestamp p s).1 = {s with tx := {s.tx with tsCursor := s.tx.tail}, stats := stats})) := by
  have behind := inv.behind
  have bound := inv.bound
  have small := nbTxBufs_le p
  have split := Nat.div_add_mod (done - next) (2^32)
  have below := Nat.mod_lt (done - next) (Nat.two_pow_pos 32)
  obtain ⟨index,place⟩ : ∃ index, index = next + 2^32 * ((done - next) / 2^32) := ⟨_,rfl⟩
  have residue : BitVec.ofNat 32 index = BitVec.ofNat 32 next := by
    apply BitVec.eq_of_toNat_eq
    rw [WrappingCounter.ofNat_toNat_mod,WrappingCounter.ofNat_toNat_mod,place,Nat.add_mul_mod_self_left]
  have cursor : s.tx.tsCursor = BitVec.ofNat 32 index := by rw [inv.cursor,residue]
  have reached : s.tx.tsCursor = s.tx.tail ↔ done = index := by
    rw [cursor,inv.tail,eq_comm]
    exact WrappingCounter.ofNat_eq_iff 32 (by omega) (by omega)
  refine ⟨index,by omega,residue,by omega,?_⟩
  unfold pollTxTimestamp
  by_cases drained : done = index
  · left
    exact ⟨drained.symm,if_pos (reached.mpr drained)⟩
  · right
    rw [if_neg (mt reached.mp drained),cursor,txIndex_ofNat]
    dsimp only
    by_cases near : done ≤ index + p.nbTxBufs
    · left
      have found := List.getElem?_eq_getElem (by omega : index < s.tx.stamps.length)
      have entry := inv.ring hw index _ (by omega) near found
      refine ⟨by omega,near,_,found,?_⟩
      rw [entry,packStamp_seq,packStamp_minor,if_neg (not_not.mpr rfl)]
      simp only [Tx.returnStamp,cursor]
    · right
      have inside := Nat.mod_lt index (nbTxBufs_pos p)
      obtain ⟨last,low,high,same⟩ := WrappingCounter.exists_mod_eq_of_window (done - p.nbTxBufs) inside
      have found := List.getElem?_eq_getElem (by omega : last < s.tx.stamps.length)
      have entry := inv.ring hw last _ (by omega) (by omega) found
      rw [same] at entry
      have other : BitVec.ofNat 32 last ≠ BitVec.ofNat 32 index := by
        rw [Ne,WrappingCounter.ofNat_eq_iff 32 (by omega) (by omega)]
        omega
      rw [entry,packStamp_seq,if_pos other]
      exact ⟨by omega,rfl,_,rfl⟩

private theorem completed_cons (event : Event) (rest : List Event) :
    completed (event::rest) = event.completed ++ completed rest := rfl

private theorem handle_inv {event : Event} {rest : List Event} (stamped : event.stamped = true → p.hwTimestamps = true)
    (inv : SendInv p s.tx (completed (event::rest)) done indices next) :
    SendInv p (handle p s event).tx (completed rest) (done + event.completed.length) indices next := by
  rw [completed_cons] at inv
  have silent (none : (p.hwTimestamps && p.hasTx) = false) (hw : p.hwTimestamps = true) : event.completed = [] := by
    rw [hw,Bool.true_and] at none
    by_contra some
    have := inv.hasTx_of_items (by simp [some])
    rw [none] at this
    cases this
  cases event with
  | tx ids ctpio =>
    simp only [handle,Event.completed,List.length_map] at inv ⊢
    split
    · exact inv.completeAll
    next none =>
      have plain := inv.skip (silent (Bool.eq_false_of_not_eq_true none))
      rw [List.length_map] at plain
      exact plain
  | txWithTimestamp id nsec nsecFrac16 ctpio =>
    have hw := stamped rfl
    have sender := inv.hasTx_of_items (by simp [Event.completed])
    simp only [handle,hw,sender,Bool.and_self,if_true]
    apply SendInv.complete inv
    have ids := inv.ids
    rw [Event.completed,List.singleton_append,List.map_cons,List.length_cons,WrappingCounter.window_succ] at ids
    have first : id = BitVec.ofNat 32 (done % p.nbTxBufs) := (List.cons.inj ids).1
    rw [first,txIndex_ofNat,Nat.mod_mod]
  | txError id =>
    simp only [handle]
    split
    · apply SendInv.complete inv
      rw [inv.tail,txIndex_ofNat]
    next none => exact inv.skip (silent (Bool.eq_false_of_not_eq_true none))
  | _ => exact inv

private theorem handleAll_inv {events later : List Event}
    (stamped : ∀ event ∈ events, event.stamped = true → p.hwTimestamps = true)
    (inv : SendInv p s.tx (completed (events ++ later)) done indices next) :
    SendInv p (events.foldl (handle p) s).tx (completed later) (done + (completed events).length) indices next := by
  induction events generalizing s done with
  | nil => exact inv
  | cons event rest ih =>
    have first := handle_inv (stamped event (by simp)) inv
    have rest := ih (fun later member => stamped later (List.mem_cons_of_mem event member)) first
    rw [Nat.add_assoc] at rest
    rw [completed_cons,List.length_append]
    exact rest

theorem SendInv.returned (inv : SendInv p tx items done indices next) {index : Nat} {word : BitVec 32}
    (gap : index = next ∨ next + 2^32 ≤ index) (residue : BitVec.ofNat 32 index = BitVec.ofNat 32 next)
    (old : index < done) (found : tx.stamps[index]? = some word) :
    SendInv p (tx.returnStamp ⟨BitVec.ofNat 32 index,word⟩) items done (indices ++ [index]) (index + 1) := by
  have small := nbTxBufs_le p
  refine ⟨inv.head,inv.tail,inv.slots,inv.seqs,inv.reported,inv.ids,inv.words,inv.bound,inv.sender,inv.ring,inv.claimed,
    inv.room,?_,?_,old,?_⟩
  · change tx.tsCursor + 1 = _
    rw [inv.cursor,← residue,WrappingCounter.ofNat_succ]
  · exact (inv.joined.later (by omega)).snoc
  · exact List.rel_append inv.polled (.cons ⟨old,rfl,found⟩ .nil)

theorem SendInv.skipped (inv : SendInv p tx items done indices next) (far : next + p.nbTxBufs < done) :
    SendInv p {tx with tsCursor := tx.tail} items done indices done :=
  ⟨inv.head,inv.tail,inv.slots,inv.seqs,inv.reported,inv.ids,inv.words,inv.bound,inv.sender,inv.ring,inv.claimed,inv.room,
    inv.tail,inv.joined.later (.inr far),Nat.le_refl done,inv.polled⟩

structure Sending (p : Params) (s : State) (indices : List Nat) (next : Nat) : Prop where
  send : SendInv p s.tx (completed (s.evs ++ s.evq)) (processed s) indices next
  stamped : ∀ event ∈ s.evs ++ s.evq, event.stamped = true → p.hwTimestamps = true
  busy : s.phase = .committing → s.tx.acquired = true

theorem SendInv.processed_eq (inv : SendInv p s.tx (completed (s.evs ++ s.evq)) done indices next) :
    processed s = done := by
  have count := inv.count
  unfold processed
  omega

private theorem completed_append (first second : List Event) :
    completed (first ++ second) = completed first ++ completed second :=
  List.flatMap_append

namespace Sending

theorem start (p : Params) : Sending p (start p) [] 0 := by
  refine ⟨⟨rfl,rfl,rfl,rfl,Nat.le_refl 0,rfl,rfl,Nat.le_refl 0,?_,?_,?_,?_,rfl,.inl rfl,Nat.le_refl 0,.nil⟩,?_,?_⟩
  · intro sender
    rcases sender with some | free
    · exact absurd rfl some
    · cases free
  · intro _ n _ old
    cases old
  · intro free
    cases free
  · intro _
    refine ⟨Nat.zero_le _,?_⟩
    intro free
    cases free
  · intro event member
    cases member
  · intro busy
    cases busy

theorem pollEvent (inv : Sending p s indices next) (wantRx : Bool) :
    Sending p (pollEvent p wantRx s) indices next ∧ processed s ≤ processed (EfVi.pollEvent p wantRx s) ∧
      ∃ stamp tail, (EfVi.pollEvent p wantRx s).tx = {s.tx with stamp := stamp, tail := tail} := by
  obtain ⟨drained,rest,queue,phase,evs,evq,tx,_⟩ := pollEvent_cases p wantRx s
  obtain ⟨_,_,_,_,stamp,tail,kept⟩ := handleAll_keeps p s (s.evs ++ drained)
  have send := inv.send
  have stamped := inv.stamped
  rw [queue,← List.append_assoc] at send stamped
  have after := handleAll_inv (fun event member => stamped event (List.mem_append_left rest member)) send
  rw [← tx] at after kept
  have shape : completed ((EfVi.pollEvent p wantRx s).evs ++ (EfVi.pollEvent p wantRx s).evq) = completed rest := by
    rw [evs,evq]
    rfl
  rw [← shape] at after
  have count := after.processed_eq
  refine ⟨⟨?_,?_,?_⟩,by omega,stamp,tail,kept⟩
  · rw [count]
    exact after
  · intro event member
    rw [evs,evq] at member
    exact stamped event (List.mem_append_right _ member)
  · intro busy
    rw [phase] at busy
    rw [kept]
    exact inv.busy busy

end Sending

private theorem generic_iff (p : Params) : p.tuning = .Generic ↔ p.kX2522Plus = false := by
  unfold Params.kX2522Plus
  cases p.tuning <;> simp

theorem plus_iff (p : Params) : p.tuning = .X2522Plus ↔ p.kX2522Plus = true := by
  unfold Params.kX2522Plus
  cases p.tuning <;> simp

theorem SendInv.gap (inv : SendInv p tx items done indices next) :
    tx.head - tx.tail = BitVec.ofNat 32 (tx.sent.length - done) := by
  have bound := inv.bound
  have reported := inv.reported
  rw [inv.head,inv.tail,WrappingCounter.sub_ofNat 32 (by omega)]

theorem SendInv.room_iff (inv : SendInv p tx items done indices next) (generic : p.tuning = .Generic) :
    txRoom p tx = true ↔ tx.sent.length < done + p.nbTxBufs := by
  have small := nbTxBufs_le p
  have bound := inv.bound
  have reported := inv.reported
  have full := (inv.room generic).1
  rw [txRoom,decide_eq_true_iff,inv.gap,BitVec.lt_def,WrappingCounter.ofNat_toNat_mod,WrappingCounter.ofNat_toNat_mod,
    Nat.mod_eq_of_lt (by omega),Nat.mod_eq_of_lt (by omega)]
  omega

private theorem completed_report (s : State) (event : Event) :
    completed ((report s event).evs ++ (report s event).evq) = completed (s.evs ++ s.evq) ++ event.completed := by
  change completed (s.evs ++ (s.evq ++ [event])) = _
  rw [← List.append_assoc,completed_append]
  exact congrArg (_ ++ ·) (List.append_nil _)

theorem processed_report (s : State) (event : Event) : processed (report s event) = processed s := by
  unfold processed
  rw [completed_report]
  simp only [report,List.length_append,List.length_map]
  omega

theorem outstanding_length (s : State) : (outstanding s).length = s.tx.sent.length - processed s := by
  rw [outstanding,List.length_drop]

namespace Sending

theorem of_tx (inv : Sending p s indices next) {tx : Tx} {phase : Phase} {rx : Rx} {stats : Stats}
    {later : List Nat} {cursor : Nat}
    (send : SendInv p tx (completed (s.evs ++ s.evq)) (processed s) later cursor)
      (busy : phase = .committing → tx.acquired = true) :
    Sending p ⟨phase,tx,rx,stats,s.evs,s.evq⟩ later cursor := by
  have same : processed ⟨phase,tx,rx,stats,s.evs,s.evq⟩ = processed s := send.processed_eq
  refine ⟨?_,inv.stamped,busy⟩
  rw [same]
  exact send

theorem acquire (inv : Sending p s indices next) (sender : p.hasTx = true) (idle : s.phase = .idle) (frameLen : BitVec 32) :
    Sending p (acquire p s frameLen).1 indices next ∧
      ((EfVi.acquire p s frameLen).2 = .flag false → p.bufSize < frameLen ∨
        (outstanding (EfVi.acquire p s frameLen).1).length = p.nbTxBufs) := by
  obtain ⟨after,same,result⟩ := acquire_cases p s frameLen
  have polled : Sending p after indices next ∧ after.phase = .idle := by
    rcases same with rfl | rfl
    · exact ⟨inv,idle⟩
    · obtain ⟨_,_,_,phase,_⟩ := pollEvent_cases p false s
      exact ⟨(inv.pollEvent false).1,phase.trans idle⟩
  rcases result with ⟨claimed,free⟩ | ⟨refused,plain,reason⟩
  · rw [claimed]
    refine ⟨polled.1.of_tx (polled.1.send.claim sender ?_ frameLen) ?_,fun null => nomatch null⟩
    · intro generic
      apply (polled.1.send.room_iff generic).mp
      rcases free with plus | room
      · rw [(generic_iff p).mp generic] at plus
        cases plus
      · exact room
    · rw [polled.2]
      intro busy
      cases busy
  · rw [refused]
    refine ⟨polled.1,?_⟩
    intro _
    rcases reason with big | full
    · exact .inl big
    · right
      have generic := (generic_iff p).mpr plain
      have most := (polled.1.send.room generic).1
      have taken := mt (polled.1.send.room_iff generic).mpr (Bool.not_eq_true _ ▸ full)
      change (outstanding after).length = _
      rw [outstanding_length]
      omega

theorem report (inv : Sending p s indices next) {event : Event} (ready : Reportable p s event) :
    Sending p (report s event) indices next := by
  refine ⟨?_,?_,inv.busy⟩
  · rw [completed_report,processed_report]
    exact inv.send.report ready.1
  · intro later member stamped
    change later ∈ s.evs ++ (s.evq ++ [event]) at member
    rw [← List.append_assoc,List.mem_append,List.mem_singleton] at member
    rcases member with old | rfl
    · exact inv.stamped later old stamped
    · exact ready.2.2 stamped

theorem pollTxTimestamp (inv : Sending p s indices next) (hw : p.hwTimestamps = true) :
    ∃ later cursor, Sending p (pollTxTimestamp p s).1 later cursor := by
  obtain ⟨index,gap,residue,_,result⟩ := pollTxTimestamp_cases inv.send hw
  rcases result with ⟨_,same⟩ | ⟨old,_,word,found,same⟩ | ⟨far,_,stats,same⟩
  · rw [same]
    exact ⟨indices,next,inv⟩
  · rw [same]
    exact ⟨_,_,inv.of_tx (inv.send.returned gap residue old found) inv.busy⟩
  · rw [same]
    exact ⟨_,_,inv.of_tx (inv.send.skipped (by omega)) inv.busy⟩

theorem idle (inv : Sending p s indices next) (rx : Rx) (stats : Stats) {phase : Phase} (free : phase ≠ .committing) :
    Sending p {s with phase := phase, rx := rx, stats := stats} indices next :=
  inv.of_tx inv.send (fun busy => absurd busy free)

theorem step {op : Op} (inv : Sending p s indices next) (moved : step p s op = some t) :
    ∃ later cursor, Sending p t later cursor := by
  cases step_action moved with
  | acquire frameLen idle sender => exact ⟨_,_,(inv.acquire sender idle frameLen).1⟩
  | txSequence | hwRxTimestamp => exact ⟨_,_,inv⟩
  | commitDirect idle acquired =>
    refine ⟨_,_,inv.of_tx (inv.send.transmitted acquired) ?_⟩
    rw [idle]
    intro busy
    cases busy
  | commitBegin _ acquired => exact ⟨_,_,inv.of_tx inv.send (fun _ => acquired)⟩
  | transmitOk busy => exact ⟨_,_,inv.of_tx (inv.send.transmitted (inv.busy busy)) (fun busy => nomatch busy)⟩
  | transmitAgain | rxFrameComplete => exact ⟨_,_,(inv.pollEvent false).1⟩
  | transmitFailed => exact ⟨_,_,inv.of_tx inv.send.abandoned (fun busy => nomatch busy)⟩
  | tryReceive | spinHit => exact ⟨_,_,inv.idle _ _ (by simp)⟩
  | spinOn => exact ⟨_,_,inv.idle _ _ (by split <;> simp)⟩
  | miss => exact ⟨_,_,((inv.idle _ s.stats (by simp)).pollEvent true).1⟩
  | pollTxTimestamp _ _ hw => exact inv.pollTxTimestamp hw
  | release | land => exact ⟨_,_,inv.of_tx inv.send inv.busy⟩
  | report ready => exact ⟨_,_,inv.report ready⟩

end Sending

theorem pollEvent_sent (p : Params) (wantRx : Bool) (s : State) :
    (pollEvent p wantRx s).tx.sent = s.tx.sent ∧ (pollEvent p wantRx s).tx.stamps = s.tx.stamps := by
  obtain ⟨drained,_,_,_,_,_,tx,_⟩ := pollEvent_cases p wantRx s
  obtain ⟨_,_,_,_,_,_,kept⟩ := handleAll_keeps p s (s.evs ++ drained)
  rw [tx,kept]
  exact ⟨rfl,rfl⟩

private theorem acquire_sent (p : Params) (s : State) (frameLen : BitVec 32) :
    (acquire p s frameLen).1.tx.sent = s.tx.sent ∧ (acquire p s frameLen).1.tx.stamps = s.tx.stamps := by
  obtain ⟨after,same,result⟩ := acquire_cases p s frameLen
  have polled : after.tx.sent = s.tx.sent ∧ after.tx.stamps = s.tx.stamps := by
    rcases same with same | same
    · rw [same]
      exact ⟨rfl,rfl⟩
    · rw [same]
      exact pollEvent_sent p false s
  rcases result with ⟨claimed,_⟩ | ⟨refused,_⟩
  · rw [claimed]
    exact polled
  · rw [refused]
    exact polled

private theorem pollTxTimestamp_sent (p : Params) (s : State) :
    (pollTxTimestamp p s).1.tx.sent = s.tx.sent ∧ (pollTxTimestamp p s).1.tx.stamps = s.tx.stamps := by
  unfold pollTxTimestamp
  split
  · exact ⟨rfl,rfl⟩
  · dsimp only
    split
    · exact ⟨rfl,rfl⟩
    · exact ⟨rfl,rfl⟩

theorem step_sent {op : Op} (moved : step p s op = some t) :
    s.tx.stamps <+: t.tx.stamps ∧
      (t.tx.sent = s.tx.sent ∨ (op = .commit ∨ op = .transmit .ok) ∧ t.tx = s.tx.transmitted) := by
  have kept {tx : Tx} (same : tx.sent = s.tx.sent ∧ tx.stamps = s.tx.stamps) :
      s.tx.stamps <+: tx.stamps ∧
        (tx.sent = s.tx.sent ∨ (op = .commit ∨ op = .transmit .ok) ∧ tx = s.tx.transmitted) :=
    ⟨⟨[],(List.append_nil _).trans same.2.symm⟩,.inl same.1⟩
  cases step_action moved with
  | acquire frameLen => exact kept (acquire_sent p s frameLen)
  | commitDirect => exact ⟨List.prefix_rfl,.inr ⟨.inl rfl,rfl⟩⟩
  | transmitOk => exact ⟨List.prefix_rfl,.inr ⟨.inr rfl,rfl⟩⟩
  | transmitAgain | rxFrameComplete => exact kept (pollEvent_sent p false s)
  | miss => exact kept (pollEvent_sent p true _)
  | pollTxTimestamp => exact kept (pollTxTimestamp_sent p s)
  | report => exact ⟨List.prefix_append _ _,.inl rfl⟩
  | _ => exact kept ⟨rfl,rfl⟩

private theorem sending_of_run {ops : List Op} (ran : run (step p) (start p) ops = some s) :
    ∃ indices next, Sending p s indices next := by
  apply reachable_invariant (fun s => ∃ indices next, Sending p s indices next) _ ⟨[],0,.start p⟩ ran
  intro s op t ⟨_,_,inv⟩ moved
  exact inv.step moved

theorem SendInv.sent_seq (inv : SendInv p tx items done indices next) {index : Nat} (old : index < done) :
    tx.sent[index]?.map Send.seq = some (BitVec.ofNat 32 index) := by
  have bound := inv.bound
  have reported := inv.reported
  rw [← List.getElem?_map,inv.seqs,List.getElem?_map,List.getElem?_range (by omega)]
  rfl

/-- Every stamp returned so far is the stamp of the send that carried its sequence
number, in completion order and without repetition. A stamp is passed over only where
more completions than the ring holds lie above it; otherwise the next poll returns the
next one. -/
theorem polled_stamps_of_sends {ops : List Op} (ran : run (step p) (start p) ops = some s) :
    ∃ indices next, indices.Pairwise (· < ·) ∧ Joined p.nbTxBufs 0 indices next ∧
      s.tx.tsCursor = BitVec.ofNat 32 next ∧ next ≤ processed s ∧
      List.Forall₂ (fun index stamp => index < processed s ∧ s.tx.sent[index]?.map Send.seq = some stamp.seq ∧
        s.tx.stamps[index]? = some stamp.minor) indices s.tx.polled ∧
      (p.hwTimestamps = true → processed s ≤ next + p.nbTxBufs →
        (next = processed s ∧ (pollTxTimestamp p s).2 = .stamp none) ∨
        (∃ stamp, (pollTxTimestamp p s).2 = .stamp (some stamp) ∧
          s.tx.sent[next]?.map Send.seq = some stamp.seq ∧ s.tx.stamps[next]? = some stamp.minor)) := by
  obtain ⟨indices,next,inv⟩ := sending_of_run ran
  refine ⟨indices,next,inv.send.joined.pairwise,inv.send.joined,inv.send.cursor,inv.send.behind,?_,?_⟩
  · apply inv.send.polled.imp
    intro index stamp ⟨old,seq,minor⟩
    exact ⟨old,by rw [inv.send.sent_seq old,seq],minor⟩
  · intro hw near
    have small := nbTxBufs_le p
    obtain ⟨index,gap,_,_,result⟩ := pollTxTimestamp_cases inv.send hw
    rcases result with ⟨same,poll⟩ | ⟨old,_,word,found,poll⟩ | ⟨far,_⟩
    · left
      have here : index = next := by omega
      rw [poll,← here]
      exact ⟨same,rfl⟩
    · right
      have here : index = next := by omega
      rw [here] at old found poll
      refine ⟨⟨BitVec.ofNat 32 next,word⟩,?_,inv.send.sent_seq old,found⟩
      rw [poll]
    · omega

def labSend : List Op := [.acquire 64,.commit]

/-- One stamp polled in time, three sends that overrun the two-entry ring, and a stamp after
them. -/
def labStamps : List Op :=
  labSend ++ [.report (.txWithTimestamp 0 5 0 true),.rxFrameComplete,.pollTxTimestamp] ++
    labSend ++ labSend ++ labSend ++ [.report (.tx [1,0] true),.report (.txError 1),.rxFrameComplete,.pollTxTimestamp] ++
    labSend ++ [.report (.txWithTimestamp 0 7 0x4000 false),.rxFrameComplete,.pollTxTimestamp]

theorem polled_stamps_of_sends_overrun :
    ∃ s, run (step (labPort .X2522Plus)) (start (labPort .X2522Plus)) labStamps = some s ∧
      s.tx.polled = [⟨0,20⟩,⟨4,29⟩] ∧
      ∃ indices, indices.Pairwise (· < ·) ∧ List.Forall₂ (fun index stamp => index < processed s ∧
        s.tx.sent[index]?.map Send.seq = some stamp.seq ∧ s.tx.stamps[index]? = some stamp.minor) indices s.tx.polled := by
  have shown : (run (step (labPort .X2522Plus)) (start (labPort .X2522Plus)) labStamps).map (fun s => s.tx.polled) =
      some [⟨0,20⟩,⟨4,29⟩] := by decide +kernel
  obtain ⟨final,ran,polled⟩ := Option.map_eq_some_iff.mp shown
  obtain ⟨indices,_,ordered,_,_,_,stamps,_⟩ := polled_stamps_of_sends ran
  exact ⟨final,ran,polled,indices,ordered,stamps⟩

/-- The slot of the next send is taken by one of the sends from number `first` on exactly
when those fill the ring. -/
theorem SendInv.slot_mem_iff (inv : SendInv p tx items done indices next) {first : Nat} (early : first ≤ tx.sent.length) :
    BitVec.ofNat 32 (tx.sent.length % p.nbTxBufs) ∈ (tx.sent.drop first).map Send.slot ↔
      p.nbTxBufs ≤ (tx.sent.drop first).length := by
  have small : p.nbTxBufs ≤ 2^32 := Nat.le_trans (nbTxBufs_le p) (by decide)
  rw [List.map_drop,inv.slots,WrappingCounter.window_drop early,Nat.zero_add,List.length_drop]
  have ring := WrappingCounter.next_mem_window_iff first (tx.sent.length - first) (nbTxBufs_pos p) small
  rwa [Nat.add_sub_cancel' early] at ring

theorem SendInv.slot_free (inv : SendInv p tx items done indices next) (generic : p.tuning = .Generic)
    (acquired : tx.acquired = true) : tx.slot ∉ (tx.sent.drop done).map Send.slot := by
  have bound := inv.bound
  have reported := inv.reported
  have free := (inv.room generic).2 acquired
  rw [inv.claimed acquired,inv.slot_mem_iff (by omega),List.length_drop]
  omega

theorem Sending.processed_le {op : Op} (inv : Sending p s indices next) (moved : EfVi.step p s op = some t) :
    processed s ≤ processed t := by
  cases step_action moved with
  | acquire frameLen =>
    obtain ⟨after,polled,result⟩ := acquire_cases p s frameLen
    have order : processed s ≤ processed after := by
      rcases polled with rfl | rfl
      · exact Nat.le_refl _
      · exact (inv.pollEvent false).2.1
    rcases result with ⟨claimed,_⟩ | ⟨refused,_⟩
    · rw [claimed]
      exact order
    · rw [refused]
      exact order
  | transmitAgain | rxFrameComplete => exact (inv.pollEvent false).2.1
  | miss =>
    have waiting : Sending p {s with phase := .idle, rx := if p.kX2522Plus then s.rx.repostReleased p else s.rx}
        indices next := inv.idle _ s.stats (by simp)
    exact (waiting.pollEvent true).2.1
  | pollTxTimestamp =>
    unfold EfVi.pollTxTimestamp
    dsimp only
    split_ifs
    · exact Nat.le_refl _
    · exact Nat.le_refl _
    · exact Nat.le_refl _
  | report => exact (processed_report s _).ge
  | _ => exact Nat.le_refl _

theorem Sending.committing_step {op : Op} (inv : Sending p s indices next) (busy : s.phase = .committing)
    (unsent : op ≠ .transmit .ok) (moved : EfVi.step p s op = some t) :
    t.tx.head = s.tx.head ∧ t.tx.sent = s.tx.sent ∧ processed s ≤ processed t := by
  have order := inv.processed_le moved
  have elsewhere {phase : Phase} (other : s.phase = phase) : phase = .committing := other.symm.trans busy
  cases step_action moved with
  | transmitOk => exact absurd rfl unsent
  | transmitAgain =>
    obtain ⟨_,_,_,_,tx⟩ := inv.pollEvent false
    refine ⟨?_,?_,order⟩
    · rw [tx]
    · rw [tx]
  | transmitFailed | land | report => exact ⟨rfl,rfl,order⟩
  | acquire _ other | txSequence other | commitDirect other | commitBegin other | tryReceive other | spinHit _ other
  | spinOn _ other | miss other | release other | pollTxTimestamp other | hwRxTimestamp other
  | rxFrameComplete other => cases elsewhere other

/-- With the libciul send path the gap between head and tail counts the outstanding
sends, at most one for each slot; an acquired slot is none of theirs, an acquire is
refused only for size or with every slot outstanding, and until a commit succeeds it
neither moves the head nor adds an outstanding send. -/
theorem acquired_slot_not_outstanding (generic : p.tuning = .Generic) {ops : List Op}
    (ran : run (step p) (start p) ops = some s) :
    s.tx.head - s.tx.tail = BitVec.ofNat 32 (outstanding s).length ∧ (outstanding s).length ≤ p.nbTxBufs ∧
    (s.tx.acquired = true → s.tx.slot ∉ (outstanding s).map Send.slot) ∧
    (∀ frameLen refused, exec p s (.acquire frameLen) = some (refused,some (.flag false)) →
      p.bufSize < frameLen ∨ (outstanding refused).length = p.nbTxBufs) ∧
    (s.phase = .committing → ∀ op later, op ≠ .transmit .ok → step p s op = some later →
      later.tx.head = s.tx.head ∧ outstanding later <:+ outstanding s) := by
  obtain ⟨indices,next,inv⟩ := sending_of_run ran
  refine ⟨?_,?_,inv.send.slot_free generic,?_,?_⟩
  · rw [outstanding_length]
    exact inv.send.gap
  · have full := (inv.send.room generic).1
    rw [outstanding_length]
    omega
  · intro frameLen refused null
    obtain ⟨⟨idle,sender,_⟩,same⟩ := Option.ite_none_right_eq_some.mp null
    have result := (inv.acquire sender idle frameLen).2
    have parts := Prod.mk.inj (Option.some.inj same)
    rw [parts.1] at result
    exact result (Option.some.inj parts.2)
  · intro busy op later unsent moved
    obtain ⟨head,sent,order⟩ := inv.committing_step busy unsent moved
    refine ⟨head,?_⟩
    rw [outstanding,outstanding,sent,← Nat.add_sub_cancel' order,← List.drop_drop]
    exact List.drop_suffix _ _

/-- The first commit is retried, the second fails; one send is outstanding when a slot is
acquired again. -/
def labCommits : List Op :=
  [.acquire 64,.commit,.transmit .again,.transmit .ok,.acquire 64,.commit,.transmit .failed,.acquire 64]

theorem acquired_slot_not_outstanding_retry :
    ∃ s, run (step (labPort .Generic)) (start (labPort .Generic)) labCommits = some s ∧ s.tx.acquired = true ∧
      (outstanding s).length = 1 ∧ s.tx.slot ∉ (outstanding s).map Send.slot := by
  have shown : (run (step (labPort .Generic)) (start (labPort .Generic)) labCommits).map
      (fun s => (s.tx.acquired,(outstanding s).length)) = some (true,1) := by decide +kernel
  obtain ⟨final,ran,parts⟩ := Option.map_eq_some_iff.mp shown
  obtain ⟨acquired,count⟩ := Prod.mk.inj parts
  obtain ⟨_,_,free,_⟩ := acquired_slot_not_outstanding rfl ran
  exact ⟨final,ran,acquired,count,free acquired⟩

end Abtrda3.EfVi
