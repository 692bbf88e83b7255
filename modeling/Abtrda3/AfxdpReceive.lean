import Abtrda3.Afxdp
import Abtrda3.Semantics.IndexRing
import Abtrda3.Semantics.Machine
import Mathlib.Data.List.Perm.Basic

/-! The receive half of the AF_XDP backend. A FILL slot is reserved in `tryReceive`
and filled in `release`, and the RX slot is given back last, so each call is cut at
every index it publishes. The kernel takes FILL entries, delivers frames on the RX
ring at any offset of their chunk, or keeps a dropped frame for later use. -/
namespace Abtrda3.AfxdpReceive
open Abtrda3.Semantics Abtrda3.Semantics.Machine Abtrda3.Afxdp

structure RxDesc where
  addr : BitVec 64
  len : BitVec 32
  deriving DecidableEq, Repr

inductive Pc
  | idle
  | peeked (idx : BitVec 32)
  | held
  | submitted
  | aborted
  deriving DecidableEq, Repr

structure State where
  pc : Pc
  fill : IndexRing 32 (BitVec 64)
  rx : IndexRing 32 RxDesc
  pendingRxAddr : BitVec 64
  pendingFqIdx : BitVec 32
  -- Frames the kernel works on, and frames it keeps after a drop.
  busy : List (BitVec 64)
  spare : List (BitVec 64)
  delivered : List RxDesc
  returned : List RxDesc

inductive Event
  | peek
  | reserve
  | submit
  | releaseRx
  | consume
  | reuse (position : Nat)
  | deliver (position : Nat) (desc : RxDesc)
  | drop (position : Nat)
  deriving DecidableEq, Repr

def fillSize (p : Params) : BitVec 32 := 2 * BitVec.ofNat 32 p.numRxFrames

def rxSize (p : Params) : BitVec 32 := BitVec.ofNat 32 p.numRxFrames

def chunk (p : Params) (addr : BitVec 64) : Nat := addr.toNat / p.frameSize

/-- The rings of a socket that could be set up; a ring of no entries is refused. -/
def configured (p : Params) : Option State :=
  if fillSize p = 0 then none
  else some ⟨.idle,IndexRing.freshProducer (fillSize p) 0,IndexRing.freshConsumer (rxSize p) ⟨0,0⟩,0,0,[],[],[],[]⟩

def poolAddrs (p : Params) : List (BitVec 64) :=
  (List.range p.rxPoolFrames).map (fun i => frameAddr p (BitVec.ofNat 32 (p.txPoolFrames + i)))

def xskPopulateFillRing (p : Params) (s : State) : State :=
  match s.fill.reserve (BitVec.ofNat 32 p.rxPoolFrames) with
  | (none,fill) => {s with fill := fill, pc := .aborted}
  | (some idx,fill) => {s with fill := (fill.writeAll idx (poolAddrs p)).submit (BitVec.ofNat 32 p.rxPoolFrames)}

def peek (s : State) : State :=
  let (rcvd,idx,rx) := s.rx.peek 1
  if rcvd = 0 then {s with rx := rx} else {s with rx := rx, pc := .peeked idx}

def reserve (s : State) (idx : BitVec 32) : State :=
  match s.fill.reserve 1 with
  | (none,fill) => {s with fill := fill, pc := .aborted}
  | (some slot,fill) =>
    let desc := s.rx.entry idx
    {s with fill := fill, pendingFqIdx := slot, pendingRxAddr := desc.addr,
            returned := s.returned ++ [desc], pc := .held}

def submit (s : State) : State :=
  {s with fill := (s.fill.write s.pendingFqIdx s.pendingRxAddr).submit 1, pc := .submitted}

def releaseRx (s : State) : State := {s with rx := s.rx.release 1, pc := .idle}

def step (p : Params) (s : State) : Event → Option State
  | .peek => if s.pc = .idle then some (peek s) else none
  | .reserve =>
    match s.pc with
    | .peeked idx => some (reserve s idx)
    | _ => none
  | .submit => if s.pc = .held then some (submit s) else none
  | .releaseRx => if s.pc = .submitted then some (releaseRx s) else none
  | .consume => s.fill.consume.map fun (addr,fill) => {s with fill := fill, busy := s.busy ++ [addr]}
  | .reuse position => s.spare[position]?.map fun addr =>
    {s with spare := s.spare.eraseIdx position, busy := s.busy ++ [addr]}
  | .deliver position desc => s.busy[position]?.bind fun addr =>
    -- The kernel delivers into the chunk it took, at an offset of its choice.
    if chunk p desc.addr = chunk p addr then
      (s.rx.produce desc).map fun rx =>
        {s with rx := rx, busy := s.busy.eraseIdx position, delivered := s.delivered ++ [desc]}
    else none
  | .drop position => s.busy[position]?.map fun addr =>
    {s with busy := s.busy.eraseIdx position, spare := s.spare ++ [addr]}

def inHand (s : State) : List (BitVec 64) :=
  match s.pc with
  | .peeked idx => [(s.rx.entry idx).addr]
  | .held => [s.pendingRxAddr]
  | _ => []

def places (p : Params) (s : State) : List Nat :=
  (s.fill.published ++ (s.busy ++ s.spare) ++ s.rx.unread.map RxDesc.addr ++ inHand s).map (chunk p)

def awaiting (s : State) : List RxDesc :=
  match s.pc with
  | .peeked idx => s.rx.entry idx :: s.rx.unread
  | _ => s.rx.unread

def rxPool (p : Params) : List Nat := (List.range p.rxPoolFrames).map (p.txPoolFrames + ·)

def unreturned (pc : Pc) (rxItems : List RxDesc) : List RxDesc :=
  match pc with
  | .submitted => rxItems.tail
  | _ => rxItems

structure Counts where
  fillConsumed : Nat
  fillReserved : Nat
  fillKnown : Nat
  fillItems : List (BitVec 64)
  rxConsumed : Nat
  rxTaken : Nat
  rxSeen : Nat
  rxItems : List RxDesc

def Stage (s : State) (c : Counts) : Prop :=
  match s.pc with
  | .idle =>
    c.fillReserved = c.fillConsumed + c.fillItems.length ∧ c.rxTaken = c.rxConsumed ∧
      s.delivered = s.returned ++ c.rxItems
  | .peeked idx =>
    c.fillReserved = c.fillConsumed + c.fillItems.length ∧ c.rxTaken = c.rxConsumed + 1 ∧
      s.delivered = s.returned ++ c.rxItems ∧ idx = BitVec.ofNat 32 c.rxConsumed
  | .held =>
    c.fillReserved = c.fillConsumed + c.fillItems.length + 1 ∧ c.rxTaken = c.rxConsumed + 1 ∧
      s.pendingFqIdx = BitVec.ofNat 32 (c.fillConsumed + c.fillItems.length) ∧
      ∃ first rest, c.rxItems = first :: rest ∧ first.addr = s.pendingRxAddr ∧ s.delivered = s.returned ++ rest
  | .submitted =>
    c.fillReserved = c.fillConsumed + c.fillItems.length ∧ c.rxTaken = c.rxConsumed + 1 ∧
      s.delivered = s.returned ++ c.rxItems.tail
  | .aborted => False

def tally (p : Params) (addrs : List (BitVec 64)) (n : Nat) : Nat := (addrs.map (chunk p)).count n

structure Inv (p : Params) (s : State) (c : Counts) : Prop where
  fill : IndexRing.Producing (p.rxBits + 1) s.fill c.fillConsumed c.fillReserved c.fillKnown c.fillItems []
  rx : IndexRing.Consuming p.rxBits s.rx c.rxConsumed c.rxTaken c.rxSeen c.rxItems
  total : ∀ n, tally p c.fillItems n + tally p s.busy n + tally p s.spare n +
    tally p ((unreturned s.pc c.rxItems).map RxDesc.addr) n = (rxPool p).count n
  stage : Stage s c

variable {p : Params} {s t : State} {c : Counts}

theorem tally_append (first second : List (BitVec 64)) (n : Nat) :
    tally p (first ++ second) n = tally p first n + tally p second n := by
  simp only [tally,List.map_append,List.count_append]

theorem tally_cons (addr : BitVec 64) (rest : List (BitVec 64)) (n : Nat) :
    tally p (addr::rest) n = tally p [addr] n + tally p rest n :=
  tally_append [addr] rest n

theorem tally_eraseIdx {addrs : List (BitVec 64)} {position : Nat} {addr : BitVec 64}
    (found : addrs[position]? = some addr) (n : Nat) :
    tally p addrs n = tally p [addr] n + tally p (addrs.eraseIdx position) n := by
  obtain ⟨inside,here⟩ := List.getElem?_eq_some_iff.mp found
  rw [← tally_cons,← here]
  exact ((List.getElem_cons_eraseIdx_perm inside).map (chunk p)).symm.count_eq n

theorem Inv.perm (inv : Inv p s c) :
    ((c.fillItems ++ (s.busy ++ s.spare) ++ (unreturned s.pc c.rxItems).map RxDesc.addr).map (chunk p)).Perm
      (rxPool p) := by
  rw [List.perm_iff_count]
  intro n
  have total := inv.total n
  change tally p _ n = _
  rw [tally_append,tally_append,tally_append]
  omega

theorem Inv.fill_length (inv : Inv p s c) (hasRx : p.mode ≠ .TxOnly) : c.fillItems.length ≤ 2^p.rxBits := by
  have total := inv.perm.length_eq
  simp only [List.length_map,List.length_append,rxPool,List.length_range,Params.rxPoolFrames,if_neg hasRx,
    Params.numRxFrames] at total
  omega

private theorem peek_inv (inv : Inv p s c) (here : s.pc = .idle) : ∃ after, Inv p (peek s) after := by
  obtain ⟨fill,rx,total,stage⟩ := inv
  simp only [Stage,here] at stage
  obtain ⟨reserved,taken,log⟩ := stage
  simp only [peek]
  rcases rx.peek_one with ⟨_,nothing,later,next⟩ | ⟨_,one,index,later,next⟩
  · rw [if_pos nothing]
    refine ⟨{c with rxSeen := later},fill,next,total,?_⟩
    simp only [Stage,here]
    exact ⟨reserved,taken,log⟩
  · rw [if_neg (by rw [one]; decide)]
    refine ⟨{c with rxSeen := later, rxTaken := c.rxTaken + 1},fill,next,?_,?_⟩
    · simpa only [unreturned,here] using total
    · refine ⟨reserved,?_,log,?_⟩
      · rw [taken]
      · rw [index,taken]

private theorem reserve_inv (inv : Inv p s c) (hasRx : p.mode ≠ .TxOnly) {idx : BitVec 32} (here : s.pc = .peeked idx) :
    ∃ after, Inv p (reserve s idx) after := by
  have room := inv.fill_length hasRx
  obtain ⟨fill,rx,total,stage⟩ := inv
  simp only [Stage,here] at stage
  obtain ⟨reserved,taken,log,index⟩ := stage
  have power : 2^(p.rxBits + 1) = 2^p.rxBits + 2^p.rxBits := by rw [Nat.pow_succ]; omega
  have positive := Nat.two_pow_pos p.rxBits
  obtain ⟨known,next,got,producing⟩ := fill.reserve (by omega : c.fillReserved + 1 ≤ c.fillConsumed + 2^(p.rxBits + 1))
  obtain ⟨first,rest,items⟩ : ∃ first rest, c.rxItems = first :: rest := by
    apply List.exists_cons_of_length_pos
    have := rx.shown
    have := rx.backed
    omega
  have entry : s.rx.entry idx = first := by
    have read := rx.entry_eq (i := 0) (by rw [items]; exact Nat.zero_lt_succ _)
    rw [Nat.add_zero,← index] at read
    simpa only [items,List.getElem_cons_zero] using read
  have found : s.fill.reserve 1 = (some (BitVec.ofNat 32 c.fillReserved),next) := got
  unfold reserve
  rw [found]
  dsimp only
  rw [entry]
  refine ⟨{c with fillReserved := c.fillReserved + 1, fillKnown := known},producing,rx,?_,?_⟩
  · simpa only [unreturned,here] using total
  · refine ⟨?_,taken,?_,first,rest,items,rfl,?_⟩
    · rw [reserved]
    · rw [reserved]
    · rw [log,items]
      simp

private theorem submit_inv (inv : Inv p s c) (here : s.pc = .held) : ∃ after, Inv p (submit s) after := by
  obtain ⟨fill,rx,total,stage⟩ := inv
  simp only [Stage,here] at stage
  obtain ⟨reserved,taken,slot,first,rest,items,address,log⟩ := stage
  have written := fill.write (by rw [List.length_nil]; omega) s.pendingRxAddr
  simp only [List.length_nil,Nat.add_zero,List.nil_append] at written
  rw [← slot] at written
  refine ⟨{c with fillItems := c.fillItems ++ [s.pendingRxAddr]},written.submit,rx,?_,?_⟩
  · intro n
    have before := total n
    simp only [submit,unreturned,here,items,List.map_cons,List.tail_cons,address] at before ⊢
    rw [tally_cons] at before
    rw [tally_append]
    omega
  · simp only [Stage,submit,items,List.tail_cons]
    refine ⟨?_,taken,log⟩
    rw [reserved,List.length_append,List.length_singleton,Nat.add_assoc]

private theorem releaseRx_inv (inv : Inv p s c) (here : s.pc = .submitted) : ∃ after, Inv p (releaseRx s) after := by
  obtain ⟨fill,rx,total,stage⟩ := inv
  simp only [Stage,here] at stage
  obtain ⟨reserved,taken,log⟩ := stage
  have released := rx.release_one (by omega)
  refine ⟨{c with rxConsumed := c.rxConsumed + 1, rxItems := c.rxItems.tail},fill,released,?_,?_⟩
  · simpa only [unreturned,here,releaseRx] using total
  · exact ⟨reserved,taken,log⟩

private theorem consume_inv (inv : Inv p s c) {addr : BitVec 64} {fill : IndexRing 32 (BitVec 64)}
    (taken : s.fill.consume = some (addr,fill)) :
    ∃ after, Inv p {s with fill := fill, busy := s.busy ++ [addr]} after := by
  obtain ⟨producing,rx,total,stage⟩ := inv
  obtain ⟨rest,items,after⟩ := producing.consume taken
  refine ⟨{c with fillConsumed := c.fillConsumed + 1, fillItems := rest},after,rx,?_,?_⟩
  · intro n
    have before := total n
    rw [items,tally_cons] at before
    dsimp only
    rw [tally_append]
    omega
  · have count : c.fillConsumed + c.fillItems.length = c.fillConsumed + 1 + rest.length := by
      rw [items,List.length_cons]
      omega
    simp only [Stage] at stage ⊢
    rw [count] at stage
    exact stage

private theorem deliver_inv (inv : Inv p s c) {position : Nat} {addr : BitVec 64} (found : s.busy[position]? = some addr)
    {desc : RxDesc} (same : chunk p desc.addr = chunk p addr) {rx : IndexRing 32 RxDesc}
    (put : s.rx.produce desc = some rx) :
    ∃ after, Inv p {s with rx := rx, busy := s.busy.eraseIdx position, delivered := s.delivered ++ [desc]} after := by
  obtain ⟨fill,consuming,total,stage⟩ := inv
  have moved (n : Nat) : tally p [desc.addr] n = tally p [addr] n := by
    simp only [tally,List.map_cons,List.map_nil,same]
  have nonempty (taken : c.rxTaken = c.rxConsumed + 1) : c.rxItems ≠ [] := by
    intro empty
    have shown := consuming.shown
    have backed := consuming.backed
    rw [empty,List.length_nil] at backed
    omega
  have grows : unreturned s.pc (c.rxItems ++ [desc]) = unreturned s.pc c.rxItems ++ [desc] := by
    cases here : s.pc with
    | submitted =>
      simp only [Stage,here] at stage
      exact List.tail_append_of_ne_nil (nonempty stage.2.1)
    | _ => rfl
  refine ⟨{c with rxItems := c.rxItems ++ [desc]},fill,consuming.produce put,?_,?_⟩
  · intro n
    have before := total n
    rw [tally_eraseIdx found] at before
    dsimp only
    rw [grows,List.map_append,tally_append]
    change _ + (_ + tally p [desc.addr] n) = _
    rw [moved]
    omega
  · cases here : s.pc with
    | idle =>
      simp only [Stage,here] at stage ⊢
      obtain ⟨reserved,taken,log⟩ := stage
      exact ⟨reserved,taken,by rw [log,List.append_assoc]⟩
    | peeked idx =>
      simp only [Stage,here] at stage ⊢
      obtain ⟨reserved,taken,log,index⟩ := stage
      exact ⟨reserved,taken,by rw [log,List.append_assoc],index⟩
    | held =>
      simp only [Stage,here] at stage ⊢
      obtain ⟨reserved,taken,slot,first,rest,items,address,log⟩ := stage
      exact ⟨reserved,taken,slot,first,rest ++ [desc],by rw [items,List.cons_append],address,
        by rw [log,List.append_assoc]⟩
    | submitted =>
      simp only [Stage,here] at stage ⊢
      obtain ⟨reserved,taken,log⟩ := stage
      exact ⟨reserved,taken,by rw [List.tail_append_of_ne_nil (nonempty taken),log,List.append_assoc]⟩
    | aborted =>
      simp only [Stage,here] at stage

private theorem shuffle_inv (inv : Inv p s c) {busy spare : List (BitVec 64)}
    (same : ∀ n, tally p busy n + tally p spare n = tally p s.busy n + tally p s.spare n) :
    Inv p {s with busy := busy, spare := spare} c := by
  obtain ⟨fill,rx,total,stage⟩ := inv
  refine ⟨fill,rx,fun n => ?_,stage⟩
  have before := total n
  have moved := same n
  dsimp only
  omega

theorem step_inv (hasRx : p.mode ≠ .TxOnly) (inv : Inv p s c) {event : Event} (moved : step p s event = some t) :
    ∃ after, Inv p t after := by
  cases event with
  | peek =>
    simp only [step] at moved
    split at moved
    · next here =>
      cases Option.some.inj moved
      exact peek_inv inv here
    · contradiction
  | reserve =>
    simp only [step] at moved
    split at moved
    · next idx here =>
      cases Option.some.inj moved
      exact reserve_inv inv hasRx here
    · contradiction
  | submit =>
    simp only [step] at moved
    split at moved
    · next here =>
      cases Option.some.inj moved
      exact submit_inv inv here
    · contradiction
  | releaseRx =>
    simp only [step] at moved
    split at moved
    · next here =>
      cases Option.some.inj moved
      exact releaseRx_inv inv here
    · contradiction
  | consume =>
    obtain ⟨⟨addr,fill⟩,taken,rfl⟩ := Option.map_eq_some_iff.mp moved
    exact consume_inv inv taken
  | reuse position =>
    obtain ⟨addr,found,rfl⟩ := Option.map_eq_some_iff.mp moved
    refine ⟨c,shuffle_inv inv fun n => ?_⟩
    rw [tally_append,tally_eraseIdx found]
    omega
  | deliver position desc =>
    obtain ⟨addr,found,rest⟩ := Option.bind_eq_some_iff.mp moved
    split at rest
    · next same =>
      obtain ⟨rx,put,rfl⟩ := Option.map_eq_some_iff.mp rest
      exact deliver_inv inv found same put
    · contradiction
  | drop position =>
    obtain ⟨addr,found,rfl⟩ := Option.map_eq_some_iff.mp moved
    refine ⟨c,shuffle_inv inv fun n => ?_⟩
    rw [tally_append,tally_eraseIdx found]
    omega

private theorem pool_below (hasRx : p.mode ≠ .TxOnly) (small : p.rxBits + 1 < 32) :
    p.txPoolFrames + p.rxPoolFrames < 2^32 := by
  have receive : 2^p.rxBits ≤ 2^30 := Nat.pow_le_pow_right (by omega) (by omega)
  have transmit : p.txPoolFrames ≤ 2^31 := by
    unfold Params.txPoolFrames
    split
    · omega
    · next hasTx => exact Nat.pow_le_pow_right (by omega) (Nat.le_of_lt_succ (p.txSized hasTx).2)
  rw [Params.rxPoolFrames,if_neg hasRx,Params.numRxFrames]
  omega

private theorem poolAddrs_chunks (hasRx : p.mode ≠ .TxOnly) (small : p.rxBits + 1 < 32) :
    (poolAddrs p).map (chunk p) = rxPool p := by
  have below := pool_below hasRx small
  have positive : 0 < p.frameSize := by
    rcases p.chunk with two | four <;> omega
  rw [poolAddrs,rxPool,List.map_map]
  apply List.map_congr_left
  intro i member
  have inside := List.mem_range.mp member
  simp only [Function.comp,chunk]
  rw [frameAddr_toNat,BitVec.toNat_ofNat,Nat.mod_eq_of_lt (by omega),Nat.mul_div_cancel _ positive]

private theorem fillSize_eq (p : Params) : fillSize p = BitVec.ofNat 32 (2^(p.rxBits + 1)) := by
  rw [fillSize,Params.numRxFrames,Nat.pow_succ,Nat.mul_comm,BitVec.ofNat_mul]
  rfl

private theorem populate_inv (hasRx : p.mode ≠ .TxOnly) (ready : configured p = some s) :
    ∃ c, Inv p (xskPopulateFillRing p s) c := by
  unfold configured at ready
  split at ready
  · contradiction
  next accepted =>
  cases Option.some.inj ready
  have bits := (p.rxSized hasRx).2
  have small : p.rxBits + 1 < 32 := by
    by_contra large
    have full : p.rxBits = 31 := by omega
    rw [fillSize_eq,full] at accepted
    exact absurd rfl accepted
  have frames : p.rxPoolFrames = 2^p.rxBits := by rw [Params.rxPoolFrames,if_neg hasRx,Params.numRxFrames]
  have count : (poolAddrs p).length = p.rxPoolFrames := by simp [poolAddrs]
  have power : 2^(p.rxBits + 1) = 2^p.rxBits + 2^p.rxBits := by rw [Nat.pow_succ]; omega
  have fresh := IndexRing.Producing.fresh small (0 : BitVec 64)
  rw [← fillSize_eq] at fresh
  obtain ⟨known,next,got,producing⟩ := fresh.reserve (by omega : 0 + p.rxPoolFrames ≤ 0 + 2^(p.rxBits + 1))
  have filled := (producing.writeAll (poolAddrs p) (by simp [count])).submit
  simp only [List.length_nil,Nat.add_zero,List.nil_append,count] at filled
  unfold xskPopulateFillRing
  dsimp only
  rw [got]
  refine ⟨⟨0,0 + p.rxPoolFrames,known,poolAddrs p,0,0,0,[]⟩,filled,IndexRing.Consuming.fresh bits _,?_,?_⟩
  · intro n
    simp only [unreturned,tally,List.map_nil,List.count_nil,Nat.add_zero,poolAddrs_chunks hasRx small]
  · exact ⟨by rw [count],rfl,rfl⟩

theorem Inv.first_unread (inv : Inv p s c) (taken : c.rxTaken = c.rxConsumed + 1) :
    ∃ first rest, c.rxItems = first :: rest ∧ s.rx.unread = rest ∧
      s.rx.entry (BitVec.ofNat 32 c.rxConsumed) = first := by
  have shown := inv.rx.shown
  have backed := inv.rx.backed
  obtain ⟨first,rest,items⟩ := List.exists_cons_of_length_pos (by omega : 0 < c.rxItems.length)
  refine ⟨first,rest,items,?_,?_⟩
  · rw [inv.rx.unread_eq,taken,Nat.add_sub_cancel_left,items,List.drop_one,List.tail_cons]
  · have read := inv.rx.entry_eq (by omega : 0 < c.rxItems.length)
    simpa only [Nat.add_zero,items,List.getElem_cons_zero] using read

theorem Inv.places_perm (inv : Inv p s c) : (places p s).Perm (rxPool p) := by
  rw [List.perm_iff_count]
  intro n
  have total := inv.total n
  have stage := inv.stage
  change tally p _ n = _
  rw [tally_append,tally_append,tally_append,tally_append,inv.fill.published_eq]
  cases here : s.pc with
  | idle =>
    simp only [Stage,unreturned,here,inHand] at stage total ⊢
    have unread := inv.rx.unread_eq
    rw [stage.2.1,Nat.sub_self,List.drop_zero] at unread
    rw [unread]
    simpa [tally,Nat.add_assoc] using total
  | peeked idx =>
    simp only [Stage,unreturned,here,inHand] at stage total ⊢
    obtain ⟨first,rest,items,unread,entry⟩ := inv.first_unread stage.2.1
    rw [stage.2.2.2,unread,entry]
    rw [items,List.map_cons,tally_cons] at total
    omega
  | held =>
    simp only [Stage,unreturned,here,inHand] at stage total ⊢
    obtain ⟨first,rest,items,unread,_⟩ := inv.first_unread stage.2.1
    obtain ⟨_,_,_,head,tail,same,address,_⟩ := stage
    rw [items] at same
    cases List.cons.inj same with
    | intro heads tails =>
      rw [unread,← address,← heads]
      rw [items,List.map_cons,tally_cons] at total
      omega
  | submitted =>
    simp only [Stage,unreturned,here,inHand] at stage total ⊢
    obtain ⟨first,rest,items,unread,_⟩ := inv.first_unread stage.2.1
    rw [unread]
    rw [items,List.tail_cons] at total
    simpa [tally,Nat.add_assoc] using total
  | aborted => simp only [Stage,here] at stage

theorem Inv.delivered_eq (inv : Inv p s c) : s.delivered = s.returned ++ awaiting s := by
  have stage := inv.stage
  cases here : s.pc with
  | idle =>
    simp only [Stage,here,awaiting] at stage ⊢
    rw [inv.rx.unread_eq,stage.2.1,Nat.sub_self,List.drop_zero,stage.2.2]
  | peeked idx =>
    simp only [Stage,here,awaiting] at stage ⊢
    obtain ⟨first,rest,items,unread,entry⟩ := inv.first_unread stage.2.1
    rw [stage.2.2.2,unread,entry,stage.2.2.1,items]
  | held =>
    simp only [Stage,here,awaiting] at stage ⊢
    obtain ⟨first,rest,items,unread,_⟩ := inv.first_unread stage.2.1
    obtain ⟨_,_,_,head,tail,same,_,log⟩ := stage
    rw [items] at same
    rw [unread,log,(List.cons.inj same).2]
  | submitted =>
    simp only [Stage,here,awaiting] at stage ⊢
    obtain ⟨first,rest,items,unread,_⟩ := inv.first_unread stage.2.1
    rw [unread,stage.2.2,items,List.tail_cons]
  | aborted => simp only [Stage,here] at stage

theorem Inv.not_aborted (inv : Inv p s c) : s.pc ≠ .aborted := by
  intro here
  have stage := inv.stage
  simp only [Stage,here] at stage

/-- Along every run each receive chunk stays in exactly one place, the FILL ring holds
no transmit chunk, frames come back in the order of the RX ring, each once, and no
reserve of a FILL slot ever fails. -/
theorem receive_conserves_chunks (p : Params) (hasRx : p.mode ≠ .TxOnly) (initial : State)
    (ready : configured p = some initial) (events : List Event) (final : State)
    (ran : run (step p) (xskPopulateFillRing p initial) events = some final) :
    (places p final).Perm (rxPool p) ∧ (∀ addr ∈ final.fill.published, p.txPoolFrames ≤ chunk p addr) ∧
      final.delivered = final.returned ++ awaiting final ∧ final.pc ≠ .aborted := by
  have reached : ∃ c, Inv p final c :=
    reachable_invariant (fun s => ∃ c, Inv p s c) (fun _ _ _ holds moved => holds.elim fun _ inv => step_inv hasRx inv
      moved)
      (populate_inv hasRx ready) ran
  obtain ⟨c,inv⟩ := reached
  refine ⟨inv.places_perm,fun addr member => ?_,inv.delivered_eq,inv.not_aborted⟩
  have placed : chunk p addr ∈ places p final := by
    apply List.mem_map_of_mem
    simp [member]
  obtain ⟨i,_,same⟩ := List.mem_map.mp (inv.places_perm.mem_iff.mp placed)
  omega

def smallPools : Params := ⟨.RxTx,3,3,2048,by decide,by decide,smallChunk⟩

def oneFrame : List Event :=
  [.consume,.deliver 0 ⟨frameAddr smallPools 8 + 256,64⟩,.peek,.reserve,.submit,.releaseRx,.peek]

theorem receive_conserves_chunks_oneFrame :
    ∃ initial final, configured smallPools = some initial ∧
      run (step smallPools) (xskPopulateFillRing smallPools initial) oneFrame = some final ∧
      final.returned = [⟨frameAddr smallPools 8 + 256,64⟩] ∧ (places smallPools final).Perm (rxPool smallPools) ∧
      (∀ addr ∈ final.fill.published, smallPools.txPoolFrames ≤ chunk smallPools addr) ∧
      final.delivered = final.returned ++ awaiting final ∧ final.pc ≠ .aborted := by
  have ready : (configured smallPools).isSome := by decide
  have ran : (run (step smallPools) (xskPopulateFillRing smallPools ((configured smallPools).get ready))
      oneFrame).isSome := by decide +revert
  refine ⟨_,_,(Option.some_get ready).symm,(Option.some_get ran).symm,by decide +revert,?_⟩
  exact receive_conserves_chunks smallPools (by decide) _ (Option.some_get ready).symm oneFrame _
    (Option.some_get ran).symm

end Abtrda3.AfxdpReceive
