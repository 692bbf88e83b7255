import Abtrda3.EfVi

/-! The receive side of the ef_vi backend over whole runs. The counts of landed,
returned, released and re-posted frames form one window of the slot ring: from the
oldest descriptor not pushed to the newest one posted, every slot stands once. -/
namespace Abtrda3.EfVi
open Abtrda3.Application Abtrda3.Semantics Abtrda3.Semantics.Machine

def etherMarker (p : Params) (bytes : List Byte) : BitVec 16 :=
  BitVec.ofNat 16 (loadBytes bytes (p.rxPrefix + 12) 2)

def Rx.pushed (rx : Rx) : Nat := rx.reposts.length - rx.inited.length

def Rx.inHand (rx : Rx) : List (BitVec 32) := if rx.held then [rx.heldId] else []

def Rx.places (rx : Rx) : List (BitVec 32) :=
  rx.inited ++ (rx.releases.drop rx.reposts.length ++ (rx.inHand ++
    ((rx.landings.drop rx.returned.length).map Prod.fst ++ rx.posted)))

def ids (p : Params) (base count : Nat) : List (BitVec 32) := WrappingCounter.window 32 p.nbRxBufs base count

structure RxRing (p : Params) (rx : Rx) : Prop where
  landed : rx.landings.map Prod.fst = ids p 0 rx.landings.length
  returned : rx.returned.map Prod.fst = ids p 0 rx.returned.length
  releases : rx.releases = ids p 0 rx.releases.length
  reposts : rx.reposts = ids p 0 rx.reposts.length
  posted : rx.posted = ids p rx.landings.length rx.posted.length
  inited : rx.inited = ids p rx.pushed rx.inited.length
  full : rx.landings.length + rx.posted.length = p.nbRxBufs + rx.pushed
  initedLe : rx.inited.length ≤ rx.reposts.length
  repostLe : rx.reposts.length ≤ rx.releases.length
  heldCount : rx.releases.length + rx.held.toNat = rx.returned.length
  behind : rx.returned.length ≤ rx.landings.length
  nextIdx : rx.nextIdx = BitVec.ofNat 32 (rx.returned.length % p.nbRxBufs)
  heldId : 0 < rx.returned.length → rx.heldId = BitVec.ofNat 32 ((rx.returned.length - 1) % p.nbRxBufs)
  pending : rx.pendingPush = BitVec.ofNat 32 rx.inited.length
  counters : p.kX2522Plus = true → rx.released = BitVec.ofNat 32 rx.releases.length ∧
    rx.reposted = BitVec.ofNat 32 rx.reposts.length

structure RxSlots (p : Params) (rx : Rx) : Prop where
  cleared : ∀ n, rx.pushed ≤ n → n < p.nbRxBufs + rx.pushed → n < rx.releases.length ∨ rx.landings.length ≤ n →
    marker p (rx.slots (n % p.nbRxBufs)) = 0
  sizes : ∀ (n : Nat) (landing : BitVec 32 × List Byte), rx.landings[n]? = some landing →
    p.rxPrefix + 14 ≤ landing.2.length ∧ landing.2.length ≤ p.bufSize.toNat
  content : ∀ (n : Nat) (landing : BitVec 32 × List Byte), rx.releases.length ≤ n → rx.landings[n]? = some landing →
    (rx.slots (n % p.nbRxBufs)).read 0 landing.2.length = landing.2
  seen : ∀ (n : Nat) (frame landing : BitVec 32 × List Byte), rx.returned[n]? = some frame → rx.landings[n]? =
    some landing →
    frame.2.take (landing.2.length - p.rxPrefix) = landing.2.drop p.rxPrefix
  stamp : p.hwTimestamps = true → ∀ (n : Nat) (landing : BitVec 32 × List Byte), rx.pushed ≤ n → rx.landings[n]? =
    some landing →
    rxTimestamp (rx.slots (n % p.nbRxBufs)) = loadU32 landing.2 kRxPrefixTsOffset
  raw : p.hwTimestamps = true → p.kX2522Plus = false → 0 < rx.returned.length →
    ∀ landing, rx.landings[rx.returned.length - 1]? = some landing → rx.tsRaw = loadU32 landing.2 kRxPrefixTsOffset

variable {p : Params} {rx : Rx}

private theorem nbRxBufs_pos (p : Params) : 0 < p.nbRxBufs := Nat.two_pow_pos p.rxBits

theorem nbRxBufs_le (p : Params) : p.nbRxBufs ≤ 2^15 :=
  Nat.pow_le_pow_right (by decide) (Nat.le_of_lt_succ p.rxBound)

theorem slotId_toNat (p : Params) (n : Nat) : (BitVec.ofNat 32 (n % p.nbRxBufs)).toNat = n % p.nbRxBufs := by
  have below := Nat.mod_lt n (nbRxBufs_pos p)
  have small := nbRxBufs_le p
  rw [WrappingCounter.ofNat_toNat_mod,Nat.mod_eq_of_lt (by omega)]

private theorem slotId_mask (p : Params) (n : Nat) :
    BitVec.ofNat 32 n &&& (BitVec.ofNat 32 p.nbRxBufs - 1) = BitVec.ofNat 32 (n % p.nbRxBufs) := by
  apply BitVec.eq_of_toNat_eq
  rw [slotId_toNat]
  exact WrappingCounter.mask_toNat (Nat.le_trans p.rxBound.le (by decide)) n

private theorem loadBytes_read (memory : ByteMemory) (base : Nat) {count offset width : Nat}
    (inside : offset + width ≤ count) :
    loadBytes (memory.read (base + offset) width) 0 width = loadBytes (memory.read base count) offset width := by
  apply loadBytes_congr
  intro i below
  simp only [byteAt,Nat.zero_add]
  rw [ByteMemory.read_getElem? memory below,ByteMemory.read_getElem? memory (by omega),Nat.add_assoc]

private theorem marker_of_content {memory : ByteMemory} {bytes : List Byte} (long : p.rxPrefix + 14 ≤ bytes.length)
    (content : memory.read 0 bytes.length = bytes) : marker p memory = etherMarker p bytes := by
  have load := loadBytes_read memory 0 (by omega : (p.rxPrefix + 12) + 2 ≤ bytes.length)
  rw [Nat.zero_add,content] at load
  rw [marker,load,etherMarker]

private theorem rxTimestamp_of_content {memory : ByteMemory} {bytes : List Byte} (long : 14 ≤ bytes.length)
    (content : memory.read 0 bytes.length = bytes) : rxTimestamp memory = loadU32 bytes kRxPrefixTsOffset := by
  have inside : kRxPrefixTsOffset + 4 ≤ bytes.length := long
  have load := loadBytes_read memory 0 inside
  rw [Nat.zero_add,content] at load
  rw [rxTimestamp,loadU32,load,loadU32]

private theorem marker_cleared (p : Params) (memory : ByteMemory) :
    marker p (memory.write (p.rxPrefix + 12) [0,0]) = 0 := by
  have two : (memory.write (p.rxPrefix + 12) [0,0]).read (p.rxPrefix + 12) 2 = [0,0] :=
    ByteMemory.read_write_same memory (p.rxPrefix + 12) [0,0]
  rw [marker,two]
  decide

private theorem rxTimestamp_cleared (p : Params) (hw : p.hwTimestamps = true) (memory : ByteMemory) :
    rxTimestamp (memory.write (p.rxPrefix + 12) [0,0]) = rxTimestamp memory := by
  have room := p.stampInPrefix hw
  rw [rxTimestamp,rxTimestamp,ByteMemory.read_write_apart]
  left
  simp only [kRxPrefixTsOffset]
  omega

theorem ids_append {base count next more : Nat} (starts : next = base + count) :
    ids p base count ++ ids p next more = ids p base (count + more) := by
  rw [starts]
  exact WrappingCounter.window_append more

theorem ids_getElem? {items : List (BitVec 32 × List Byte)} (window : items.map Prod.fst = ids p 0 items.length) {n : Nat}
    {item : BitVec 32 × List Byte} (found : items[n]? = some item) : item.1 = BitVec.ofNat 32 (n % p.nbRxBufs) := by
  obtain ⟨inside,_⟩ := List.getElem?_eq_some_iff.mp found
  have named := congrArg (·[n]?) window
  simp only [List.getElem?_map,found,Option.map_some,ids,WrappingCounter.window_getElem? inside,Nat.zero_add,
    Option.some.injEq] at named
  exact named

namespace RxRing

theorem pushed_le (ring : RxRing p rx) : rx.pushed ≤ rx.releases.length := by
  have := ring.repostLe
  unfold Rx.pushed
  omega

private theorem inited_le (ring : RxRing p rx) : rx.inited.length ≤ p.nbRxBufs := by
  have := ring.full
  have := ring.behind
  have := ring.heldCount
  have := ring.repostLe
  have := ring.initedLe
  unfold Rx.pushed at *
  omega

theorem landed_le (ring : RxRing p rx) : rx.landings.length ≤ p.nbRxBufs + rx.pushed := by
  have := ring.full
  omega

theorem start (receives : p.hasRx = true) : RxRing p (start p).rx := by
  have posted : (EfVi.start p).rx.posted = ids p 0 p.nbRxBufs := by
    simp only [EfVi.start,receives,if_true,rxIds,ids,WrappingCounter.window]
    rw [List.range_eq_range']
    apply List.map_congr_left
    intro n member
    have inside := (List.mem_range'_1.mp member).2
    rw [Nat.mod_eq_of_lt (by omega)]
  have length : (EfVi.start p).rx.posted.length = p.nbRxBufs := by
    rw [posted,ids,WrappingCounter.window_length]
  refine ⟨rfl,rfl,rfl,rfl,?_,rfl,?_,Nat.le_refl 0,Nat.le_refl 0,rfl,Nat.le_refl 0,?_,?_,rfl,fun _ => ⟨rfl,rfl⟩⟩
  · rw [length,posted]
    rfl
  · rw [length,Nat.add_comm]
    rfl
  · change _ = BitVec.ofNat 32 (0 % p.nbRxBufs)
    rw [Nat.zero_mod]
    rfl
  · intro some
    cases some

/-- A marker that is set belongs to a frame that has landed and was not returned. -/
theorem landed_of_marker (ring : RxRing p rx) (slots : RxSlots p rx) (free : rx.held = false)
    (set : marker p (rx.slots rx.nextIdx.toNat) ≠ 0) : rx.returned.length < rx.landings.length := by
  have full := ring.landed_le
  have behind := ring.behind
  have pushed := ring.pushed_le
  have count := ring.heldCount
  rw [free,Bool.toNat_false,Nat.add_zero] at count
  rw [ring.nextIdx,slotId_toNat] at set
  by_contra none
  apply set
  rcases Nat.lt_or_ge rx.returned.length (p.nbRxBufs + rx.pushed) with inside | lap
  · exact slots.cleared _ (by omega) inside (by omega)
  · have same : rx.returned.length = p.nbRxBufs + rx.pushed := by omega
    have pos := nbRxBufs_pos p
    rw [same,Nat.add_mod_left]
    exact slots.cleared _ (Nat.le_refl _) (by omega) (by omega)

theorem hit (ring : RxRing p rx) (free : rx.held = false) (more : rx.returned.length < rx.landings.length) :
    RxRing p (rx.hit p) := by
  have count := ring.heldCount
  rw [free,Bool.toNat_false,Nat.add_zero] at count
  have length : (rx.hit p).returned.length = rx.returned.length + 1 := by simp [Rx.hit]
  refine ⟨ring.landed,?_,ring.releases,ring.reposts,ring.posted,ring.inited,ring.full,ring.initedLe,ring.repostLe,?_,?_,
    ?_,?_,ring.pending,ring.counters⟩
  · rw [length,ids,WrappingCounter.window_snoc,Nat.zero_add,← ring.nextIdx,← ids,← ring.returned]
    simp [Rx.hit]
  · rw [length]
    exact congrArg (· + 1) count
  · rw [length]
    exact more
  · rw [length]
    change (rx.nextIdx + 1) &&& _ = _
    rw [ring.nextIdx,WrappingCounter.ofNat_succ,slotId_mask,Nat.mod_add_mod]
  · intro _
    rw [length,Nat.add_sub_cancel]
    exact ring.nextIdx

theorem receiveInit (ring : RxRing p rx) (more : rx.reposts.length < rx.releases.length) {id reposted : BitVec 32}
    (named : id = BitVec.ofNat 32 (rx.reposts.length % p.nbRxBufs))
    (counter : p.kX2522Plus = true → reposted = BitVec.ofNat 32 (rx.reposts.length + 1)) :
    RxRing p {rx.receiveInit id with reposted := reposted, pendingPush := rx.pendingPush + 1} := by
  have initedLe := ring.initedLe
  have inited : (rx.inited ++ [id]).length = rx.inited.length + 1 := by simp
  have reposts : (rx.reposts ++ [id]).length = rx.reposts.length + 1 := by simp
  have pushed : Rx.pushed {rx.receiveInit id with reposted := reposted, pendingPush := rx.pendingPush + 1} = rx.pushed := by
    simp only [Rx.pushed,Rx.receiveInit,inited,reposts]
    omega
  refine ⟨ring.landed,ring.returned,ring.releases,?_,ring.posted,?_,?_,?_,?_,ring.heldCount,ring.behind,ring.nextIdx,
    ring.heldId,?_,?_⟩
  · simp only [Rx.receiveInit]
    rw [reposts,ids,WrappingCounter.window_snoc,Nat.zero_add,← named,← ids,← ring.reposts]
  · rw [pushed]
    simp only [Rx.receiveInit]
    have last : rx.pushed + rx.inited.length = rx.reposts.length := by
      unfold Rx.pushed
      omega
    rw [inited,ids,WrappingCounter.window_snoc,last,← named,← ids,← ring.inited]
  · rw [pushed]
    exact ring.full
  · simp only [Rx.receiveInit]
    omega
  · simp only [Rx.receiveInit]
    omega
  · simp only [Rx.receiveInit]
    rw [inited,ring.pending,WrappingCounter.ofNat_succ]
  · intro plus
    refine ⟨(ring.counters plus).1,?_⟩
    simp only [Rx.receiveInit]
    rw [reposts]
    exact counter plus

private theorem pushed_push (ring : RxRing p rx) : rx.push.pushed = rx.pushed + rx.inited.length / 8 * 8 := by
  have initedLe := ring.initedLe
  have most := Nat.div_mul_le_self rx.inited.length 8
  simp only [Rx.pushed,Rx.push,Rx.receivePush,List.length_drop]
  omega

theorem push (ring : RxRing p rx) : RxRing p rx.push := by
  have initedLe := ring.initedLe
  have full := ring.full
  have most := Nat.div_mul_le_self rx.inited.length 8
  have split := Nat.div_add_mod rx.inited.length 8
  have pushed := ring.pushed_push
  refine ⟨ring.landed,ring.returned,ring.releases,ring.reposts,?_,?_,?_,?_,ring.repostLe,ring.heldCount,ring.behind,
    ring.nextIdx,ring.heldId,?_,ring.counters⟩
  · simp only [Rx.push,Rx.receivePush]
    have moved : rx.inited.take (rx.inited.length / 8 * 8) =
        ids p (rx.landings.length + rx.posted.length) (rx.inited.length / 8 * 8) := by
      rw [ring.inited,ids,WrappingCounter.window_length,WrappingCounter.window_take most,full,
        ids,WrappingCounter.window_lap]
    rw [List.length_append,List.length_take,Nat.min_eq_left most,ids,← WrappingCounter.window_append,moved]
    exact congrArg (· ++ _) ring.posted
  · rw [pushed]
    simp only [Rx.push,Rx.receivePush,List.length_drop]
    rw [ids,← WrappingCounter.window_drop most,← ids,← ring.inited]
  · rw [pushed]
    simp only [Rx.push,Rx.receivePush,List.length_append,List.length_take]
    omega
  · simp only [Rx.push,Rx.receivePush,List.length_drop]
    omega
  · simp only [Rx.push,Rx.receivePush,List.length_drop]
    have mask : BitVec.ofNat 32 rx.inited.length &&& 7 = BitVec.ofNat 32 (rx.inited.length % 8) := by
      apply BitVec.eq_of_toNat_eq
      rw [WrappingCounter.ofNat_toNat_mod,Nat.mod_eq_of_lt (by omega)]
      exact WrappingCounter.mask_toNat (by decide : 3 ≤ 32) rx.inited.length
    rw [ring.pending,mask]
    congr 1
    omega

theorem held_releases (ring : RxRing p rx) (held : rx.held = true) :
    rx.releases.length + 1 = rx.returned.length ∧ rx.heldId = BitVec.ofNat 32 (rx.releases.length % p.nbRxBufs) := by
  have count := ring.heldCount
  rw [held,Bool.toNat_true] at count
  refine ⟨count,?_⟩
  rw [ring.heldId (by omega),← count,Nat.add_sub_cancel]

theorem clearMarker (ring : RxRing p rx) (held : rx.held = true) {released : BitVec 32}
    (counter : p.kX2522Plus = true → released = rx.released + 1) :
    RxRing p {rx.clearMarker p with released := released} := by
  obtain ⟨count,current⟩ := ring.held_releases held
  have repostLe := ring.repostLe
  have length : (rx.releases ++ [rx.heldId]).length = rx.releases.length + 1 := by simp
  refine ⟨ring.landed,ring.returned,?_,ring.reposts,ring.posted,ring.inited,ring.full,ring.initedLe,?_,?_,ring.behind,
    ring.nextIdx,ring.heldId,ring.pending,?_⟩
  · simp only [Rx.clearMarker]
    rw [length,ids,WrappingCounter.window_snoc,Nat.zero_add,← current,← ids,← ring.releases]
  · simp only [Rx.clearMarker]
    omega
  · simp only [Rx.clearMarker]
    rw [length,Bool.toNat_false]
    exact count
  · intro plus
    obtain ⟨before,reposted⟩ := ring.counters plus
    simp only [Rx.clearMarker]
    rw [length,counter plus,before,WrappingCounter.ofNat_succ]
    exact ⟨rfl,reposted⟩

theorem land (ring : RxRing p rx) {id : BitVec 32} (front : rx.posted.head? = some id) (bytes : List Byte)
    (slots : Nat → ByteMemory) :
    id = BitVec.ofNat 32 (rx.landings.length % p.nbRxBufs) ∧
      RxRing p {rx with posted := rx.posted.tail, landings := rx.landings ++ [(id,bytes)], slots := slots} := by
  obtain ⟨rest,posted⟩ : ∃ rest, rx.posted = id::rest := by
    cases all : rx.posted with
    | nil => rw [all] at front; cases front
    | cons first rest =>
      rw [all] at front
      cases front
      exact ⟨rest,rfl⟩
  have window := ring.posted
  rw [posted,List.length_cons,ids,WrappingCounter.window_succ] at window
  obtain ⟨named,later⟩ := List.cons.inj window
  have full := ring.full
  rw [posted,List.length_cons] at full
  have behind := ring.behind
  have length : (rx.landings ++ [(id,bytes)]).length = rx.landings.length + 1 := by simp
  refine ⟨named,?_,ring.returned,ring.releases,ring.reposts,?_,ring.inited,?_,ring.initedLe,ring.repostLe,ring.heldCount,
    ?_,ring.nextIdx,ring.heldId,ring.pending,ring.counters⟩
  · dsimp only
    rw [length,ids,WrappingCounter.window_snoc,Nat.zero_add,← named,← ids,← ring.landed,List.map_append]
    rfl
  · dsimp only
    rw [length,posted,List.tail_cons]
    exact later
  · dsimp only
    rw [length,posted,List.tail_cons]
    change _ = p.nbRxBufs + rx.pushed
    omega
  · dsimp only
    omega

end RxRing

namespace RxSlots

theorem start (p : Params) : RxSlots p (start p).rx := by
  have zero : marker p (fun _ => 0) = 0 := by simp [marker,ByteMemory.read,loadBytes,byteAt,List.range_succ]
  refine ⟨fun _ _ _ _ => zero,?_,?_,?_,?_,?_⟩
  · intro n landing found
    cases found
  · intro n landing _ found
    cases found
  · intro n frame landing found
    cases found
  · intro _ n landing _ found
    cases found
  · intro _ _ some
    cases some

private theorem keep_slot {slots : Nat → ByteMemory} {base n m : Nat} (memory : ByteMemory) (lowFirst : base ≤ n)
    (highFirst : n < p.nbRxBufs + base) (lowSecond : base ≤ m) (highSecond : m < p.nbRxBufs + base) (different : n ≠ m) :
    Function.update slots (m % p.nbRxBufs) memory (n % p.nbRxBufs) = slots (n % p.nbRxBufs) := by
  rw [Function.update_of_ne]
  intro same
  exact different (WrappingCounter.mod_inj_of_window lowFirst lowSecond (by omega) (by omega) same)

theorem receiveInit (slots : RxSlots p rx) (initedLe : rx.inited.length ≤ rx.reposts.length) {id reposted : BitVec 32} :
    RxSlots p {rx.receiveInit id with reposted := reposted, pendingPush := rx.pendingPush + 1} := by
  have pushed : Rx.pushed {rx.receiveInit id with reposted := reposted, pendingPush := rx.pendingPush + 1} = rx.pushed := by
    simp only [Rx.pushed,Rx.receiveInit,List.length_append,List.length_singleton]
    omega
  refine ⟨?_,slots.sizes,slots.content,slots.seen,?_,slots.raw⟩
  · rw [pushed]
    exact slots.cleared
  · rw [pushed]
    exact slots.stamp

theorem push (slots : RxSlots p rx) (ring : RxRing p rx) : RxSlots p rx.push := by
  have pushed := ring.pushed_push
  have most := Nat.div_mul_le_self rx.inited.length 8
  have initedLe := ring.initedLe
  have repostLe := ring.repostLe
  have initedRoom := ring.inited_le
  have start : rx.pushed + rx.inited.length = rx.reposts.length := by
    unfold Rx.pushed
    omega
  refine ⟨?_,slots.sizes,slots.content,slots.seen,?_,slots.raw⟩
  · intro n low high empty
    rw [pushed] at low high
    rcases Nat.lt_or_ge n (p.nbRxBufs + rx.pushed) with inside | lap
    · exact slots.cleared n (by omega) inside empty
    -- A position of the next lap is the slot of a descriptor that was just pushed.
    · obtain ⟨before,rfl⟩ := Nat.exists_eq_add_of_le (Nat.le_of_add_right_le lap)
      change marker p (rx.slots _) = 0
      rw [Nat.add_mod_left]
      exact slots.cleared before (by omega) (by omega) (.inl (by omega))
  · intro hw n landing low found
    rw [pushed] at low
    exact slots.stamp hw n landing (by omega) found

theorem hit (slots : RxSlots p rx) (ring : RxRing p rx) (free : rx.held = false) : RxSlots p (rx.hit p) := by
  have count := ring.heldCount
  rw [free,Bool.toNat_false,Nat.add_zero] at count
  have place : rx.nextIdx.toNat = rx.returned.length % p.nbRxBufs := by rw [ring.nextIdx,slotId_toNat]
  have content (landing : BitVec 32 × List Byte) (found : rx.landings[rx.returned.length]? = some landing) :
      (rx.slots rx.nextIdx.toNat).read 0 landing.2.length = landing.2 := by
    rw [place]
    exact slots.content _ landing count.le found
  refine ⟨slots.cleared,slots.sizes,slots.content,?_,slots.stamp,?_⟩
  · intro n frame landing found landed
    rcases log_snoc_cases found with before | ⟨rfl,rfl⟩
    · exact slots.seen n frame landing before landed
    · obtain ⟨_,small⟩ := slots.sizes _ landing landed
      have whole := content landing landed
      rw [ByteMemory.read_take _ (by omega)]
      conv_rhs => rw [← whole,ByteMemory.read_drop,Nat.zero_add]
  · intro hw generic _ landing found
    have length : (rx.hit p).returned.length - 1 = rx.returned.length := by simp [Rx.hit]
    rw [length] at found
    obtain ⟨long,_⟩ := slots.sizes _ landing found
    have whole := content landing found
    simp only [Rx.hit,hw,generic,Bool.not_false,Bool.and_self,if_true]
    exact rxTimestamp_of_content (by omega) whole

theorem clearMarker (slots : RxSlots p rx) (ring : RxRing p rx) (held : rx.held = true) (released : BitVec 32) :
    RxSlots p {rx.clearMarker p with released := released} := by
  obtain ⟨count,current⟩ := ring.held_releases held
  have low := ring.pushed_le
  have high := ring.landed_le
  have behind := ring.behind
  have place : rx.heldId.toNat = rx.releases.length % p.nbRxBufs := by rw [current,slotId_toNat]
  have length : (rx.releases ++ [rx.heldId]).length = rx.releases.length + 1 := by simp
  have elsewhere (n : Nat) (since : rx.pushed ≤ n) (below : n < p.nbRxBufs + rx.pushed)
      (different : n ≠ rx.releases.length) :
      (rx.clearMarker p).slots (n % p.nbRxBufs) = rx.slots (n % p.nbRxBufs) := by
    simp only [Rx.clearMarker,place]
    exact keep_slot _ since below low (by omega) different
  have here : (rx.clearMarker p).slots (rx.releases.length % p.nbRxBufs) =
      (rx.slots (rx.releases.length % p.nbRxBufs)).write (p.rxPrefix + 12) [0,0] := by
    simp only [Rx.clearMarker,place,Function.update_self]
  refine ⟨?_,slots.sizes,?_,slots.seen,?_,slots.raw⟩
  · intro n since below empty
    change n < (rx.releases ++ [rx.heldId]).length ∨ rx.landings.length ≤ n at empty
    rw [length] at empty
    by_cases same : n = rx.releases.length
    · rw [same]
      exact (congrArg (marker p) here).trans (marker_cleared p _)
    · exact (congrArg (marker p) (elsewhere n since below same)).trans (slots.cleared n since below (by omega))
  · intro n landing past found
    obtain ⟨inside,_⟩ := List.getElem?_eq_some_iff.mp found
    change (rx.releases ++ [rx.heldId]).length ≤ n at past
    change n < rx.landings.length at inside
    rw [length] at past
    have before := slots.content n landing (by omega) found
    rw [← elsewhere n (by omega) (by omega) (by omega)] at before
    exact before
  · intro hw n landing since found
    obtain ⟨inside,_⟩ := List.getElem?_eq_some_iff.mp found
    change n < rx.landings.length at inside
    rw [← slots.stamp hw n landing since found]
    by_cases same : n = rx.releases.length
    · rw [same]
      exact (congrArg rxTimestamp here).trans (rxTimestamp_cleared p hw _)
    · exact congrArg rxTimestamp (elsewhere n since (by omega) same)

theorem land (slots : RxSlots p rx) (ring : RxRing p rx) {id : BitVec 32} {bytes : List Byte}
    (front : rx.posted.head? = some id) (long : p.rxPrefix + 14 ≤ bytes.length) (short : bytes.length ≤ p.bufSize.toNat) :
    RxSlots p {rx with posted := rx.posted.tail, landings := rx.landings ++ [(id,bytes)],
                       slots := Function.update rx.slots id.toNat ((rx.slots id.toNat).write 0 bytes)} := by
  obtain ⟨named,_⟩ := ring.land front bytes rx.slots
  have waiting : 0 < rx.posted.length := by
    apply List.length_pos_of_ne_nil
    intro none
    rw [none] at front
    cases front
  have full := ring.full
  have low := ring.pushed_le
  have behind := ring.behind
  have count := ring.heldCount
  have place : id.toNat = rx.landings.length % p.nbRxBufs := by rw [named,slotId_toNat]
  have length : (rx.landings ++ [(id,bytes)]).length = rx.landings.length + 1 := by simp
  have elsewhere (n : Nat) (since : rx.pushed ≤ n) (below : n < p.nbRxBufs + rx.pushed) (different : n ≠ rx.landings.length)
      (memory : ByteMemory) : Function.update rx.slots (rx.landings.length % p.nbRxBufs) memory (n % p.nbRxBufs) =
        rx.slots (n % p.nbRxBufs) :=
    keep_slot memory since below (by omega) (by omega) different
  rw [place]
  refine ⟨?_,?_,?_,?_,?_,?_⟩
  · intro n since below empty
    dsimp only at empty ⊢
    rw [length] at empty
    rw [elsewhere n since below (by omega)]
    exact slots.cleared n since below (by omega)
  · intro n landing found
    rcases log_snoc_cases found with before | ⟨_,rfl⟩
    · exact slots.sizes n landing before
    · exact ⟨long,short⟩
  · intro n landing past found
    dsimp only at past ⊢
    rcases log_snoc_cases found with before | ⟨rfl,rfl⟩
    · obtain ⟨inside,_⟩ := List.getElem?_eq_some_iff.mp before
      rw [elsewhere n (by omega) (by omega) (by omega)]
      exact slots.content n landing past before
    · rw [Function.update_self]
      exact ByteMemory.read_write_same ..
  · intro n frame landing found landed
    obtain ⟨inside,_⟩ := List.getElem?_eq_some_iff.mp found
    dsimp only at inside
    rcases log_snoc_cases landed with before | ⟨here,_⟩
    · exact slots.seen n frame landing found before
    · omega
  · intro hw n landing since found
    change rx.pushed ≤ n at since
    dsimp only
    rcases log_snoc_cases found with before | ⟨rfl,rfl⟩
    · obtain ⟨inside,_⟩ := List.getElem?_eq_some_iff.mp before
      rw [elsewhere n since (by omega) (by omega)]
      exact slots.stamp hw n landing since before
    · rw [Function.update_self]
      exact rxTimestamp_of_content (Nat.le_trans (Nat.le_add_left 14 p.rxPrefix) long) (ByteMemory.read_write_same ..)
  · intro hw generic some landing found
    dsimp only at some found
    rcases log_snoc_cases found with before | ⟨here,_⟩
    · exact slots.raw hw generic some landing before
    · omega

end RxSlots

/-- The receive side between two steps: ring, contents, and the re-posts in step with
the releases, at once with libciul and behind them with the deferred re-post. -/
structure RxInv (p : Params) (rx : Rx) : Prop where
  ring : RxRing p rx
  slots : RxSlots p rx
  prompt : p.kX2522Plus = false → rx.reposts = rx.releases

namespace RxInv

theorem start (receives : p.hasRx = true) : RxInv p (start p).rx := ⟨.start receives,.start p,fun _ => rfl⟩

theorem push (inv : RxInv p rx) : RxInv p rx.push := ⟨inv.ring.push,inv.slots.push inv.ring,inv.prompt⟩

theorem release (inv : RxInv p rx) (held : rx.held = true) : RxInv p (rx.release p) := by
  unfold Rx.release
  dsimp only
  split
  next plus =>
    refine ⟨inv.ring.clearMarker held (fun _ => rfl),inv.slots.clearMarker inv.ring held _,?_⟩
    intro generic
    rw [generic] at plus
    cases plus
  next plus =>
    have generic := Bool.eq_false_of_not_eq_true plus
    have absurdly (tuned : p.kX2522Plus = true) : False := plus tuned
    have ring : RxRing p {rx.clearMarker p with released := rx.released} :=
      inv.ring.clearMarker held (fun tuned => (absurdly tuned).elim)
    have slots := inv.slots.clearMarker inv.ring held rx.released
    have same := inv.prompt generic
    have named : rx.heldId = BitVec.ofNat 32 (rx.reposts.length % p.nbRxBufs) := by
      rw [same]
      exact (inv.ring.held_releases held).2
    have more : rx.reposts.length < (rx.releases ++ [rx.heldId]).length := by
      rw [same,List.length_append]
      exact Nat.lt_succ_self _
    have next : RxInv p {(rx.clearMarker p).receiveInit rx.heldId with pendingPush := rx.pendingPush + 1} := by
      refine ⟨ring.receiveInit more named (fun tuned => (absurdly tuned).elim),slots.receiveInit ring.initedLe,?_⟩
      intro _
      simp only [Rx.receiveInit,Rx.clearMarker]
      rw [same]
    split
    · exact next.push
    · exact next

theorem repost (inv : RxInv p rx) (plus : p.kX2522Plus = true) (more : rx.reposted ≠ rx.released) :
    RxInv p (rx.repost p) := by
  obtain ⟨released,reposted⟩ := inv.ring.counters plus
  have order := inv.ring.repostLe
  have less : rx.reposts.length < rx.releases.length := by
    rcases Nat.lt_or_eq_of_le order with less | same
    · exact less
    · rw [released,reposted,same] at more
      exact absurd rfl more
  have next : rx.reposted + 1 = BitVec.ofNat 32 (rx.reposts.length + 1) := by
    rw [reposted,WrappingCounter.ofNat_succ]
  refine ⟨inv.ring.receiveInit less ?_ (fun _ => next),inv.slots.receiveInit inv.ring.initedLe,?_⟩
  · rw [reposted,slotId_mask]
  · intro generic
    rw [generic] at plus
    cases plus

theorem repostLoop (inv : RxInv p rx) (plus : p.kX2522Plus = true) (fuel : Nat) : RxInv p (rx.repostLoop p fuel) := by
  induction fuel generalizing rx with
  | zero => exact inv
  | succ fuel ih =>
    unfold Rx.repostLoop
    split
    · exact inv
    next more => exact ih (inv.repost plus more)

end RxInv

private theorem repostLoop_releases (p : Params) (rx : Rx) (fuel : Nat) :
    (rx.repostLoop p fuel).releases = rx.releases ∧ (rx.repostLoop p fuel).released = rx.released := by
  induction fuel generalizing rx with
  | zero => exact ⟨rfl,rfl⟩
  | succ fuel ih =>
    unfold Rx.repostLoop
    split
    · exact ⟨rfl,rfl⟩
    · exact ih (rx.repost p)

private theorem repostLoop_done (p : Params) {fuel : Nat} (enough : (rx.released - rx.reposted).toNat ≤ fuel) :
    (rx.repostLoop p fuel).reposted = rx.released := by
  induction fuel generalizing rx with
  | zero =>
    change rx.reposted = rx.released
    bv_omega
  | succ fuel ih =>
    unfold Rx.repostLoop
    split
    next same => exact same
    next more =>
      apply ih
      change (rx.released - (rx.reposted + 1)).toNat ≤ fuel
      bv_omega

theorem RxInv.repostReleased_length (inv : RxInv p rx) (plus : p.kX2522Plus = true) :
    (rx.repostReleased p).reposts.length = rx.releases.length := by
  have ring : RxRing p (rx.repostReleased p) := (inv.repostLoop plus _).ring
  have done : (rx.repostReleased p).reposted = rx.released := repostLoop_done p (Nat.le_refl _)
  obtain ⟨releases,released⟩ := repostLoop_releases p rx (rx.released - rx.reposted).toNat
  obtain ⟨all,some⟩ := ring.counters plus
  have small := nbRxBufs_le p
  have order := ring.repostLe
  have held := ring.heldCount
  have behind := ring.behind
  have landed := ring.landed_le
  unfold Rx.pushed at landed
  have same : BitVec.ofNat 32 (rx.repostReleased p).releases.length =
      BitVec.ofNat 32 (rx.repostReleased p).reposts.length := by
    rw [← some,← all,done]
    exact released
  rw [← (WrappingCounter.ofNat_eq_iff 32 order (by omega)).mp same]
  exact congrArg List.length releases

def Phase.polling : Phase → Bool
  | .spinning _ => true
  | .missed => true
  | _ => false

inductive RxStep (p : Params) (phase : Phase) : Rx → Rx → Prop
  | same (rx : Rx) : RxStep p phase rx rx
  | push (rx : Rx) : RxStep p phase rx rx.push
  | repost (rx : Rx) : phase = .missed → p.kX2522Plus = true → RxStep p phase rx (rx.repostReleased p)
  | repostPush (rx : Rx) : phase = .missed → p.kX2522Plus = true → RxStep p phase rx (rx.repostReleased p).push
  | hit (rx : Rx) (k : Nat) : phase = .spinning k → marker p (rx.slots rx.nextIdx.toNat) ≠ 0 →
      RxStep p phase rx (rx.hit p)
  | release (rx : Rx) : phase = .idle → rx.held = true → RxStep p phase rx (rx.release p)
  | land (rx later : Rx) (bytes : List Byte) : land p rx bytes = some later → RxStep p phase rx later
  | report (rx : Rx) (count : Nat) : RxStep p phase rx {rx with reported := rx.reported + count}

variable {s t : State}

theorem pollEvent_rxStep (p : Params) (wantRx : Bool) (s : State) (phase : Phase) :
    RxStep p phase s.rx (pollEvent p wantRx s).rx := by
  obtain ⟨_,_,_,_,_,_,_,rx⟩ := pollEvent_cases p wantRx s
  rcases rx with same | ⟨_,_,pushed⟩
  · rw [same]
    exact .same s.rx
  · rw [pushed]
    exact .push s.rx

private theorem acquire_rxStep (p : Params) (s : State) (frameLen : BitVec 32) (phase : Phase) :
    RxStep p phase s.rx (acquire p s frameLen).1.rx := by
  obtain ⟨after,same,result⟩ := acquire_cases p s frameLen
  have polled : RxStep p phase s.rx after.rx := by
    rcases same with same | same
    · rw [same]
      exact .same s.rx
    · rw [same]
      exact pollEvent_rxStep p false s phase
  rcases result with ⟨claimed,_⟩ | ⟨refused,_⟩
  · rw [claimed]
    exact polled
  · rw [refused]
    exact polled

private theorem miss_rxStep (p : Params) (s : State) {phase : Phase} (missed : phase = .missed) :
    RxStep p phase s.rx (miss p s).rx := by
  unfold miss
  split
  next plus =>
    obtain ⟨_,_,_,_,_,_,_,rx⟩ := pollEvent_cases p true {s with phase := .idle, rx := s.rx.repostReleased p}
    rcases rx with same | ⟨_,_,pushed⟩
    · rw [same]
      exact .repost s.rx missed plus
    · rw [pushed]
      exact .repostPush s.rx missed plus
  · exact pollEvent_rxStep p true {s with phase := .idle} phase

private theorem pollTxTimestamp_rx (p : Params) (s : State) : (pollTxTimestamp p s).1.rx = s.rx := by
  unfold pollTxTimestamp
  split
  · rfl
  · dsimp only
    split
    · rfl
    · rfl

theorem step_rx {op : Op} (moved : step p s op = some t) : RxStep p s.phase s.rx t.rx := by
  cases step_action moved with
  | acquire frameLen => exact acquire_rxStep p s frameLen s.phase
  | transmitAgain | rxFrameComplete => exact pollEvent_rxStep p false s s.phase
  | spinHit k spinning set => exact .hit s.rx k spinning set
  | miss missed => exact miss_rxStep p s missed
  | release idle held => exact .release s.rx idle held
  | pollTxTimestamp =>
    rw [pollTxTimestamp_rx]
    exact .same s.rx
  | land landed => exact .land s.rx _ _ landed
  | report => exact .report s.rx _
  | _ => exact .same s.rx

theorem miss_phase (p : Params) (s : State) : (miss p s).phase = .idle := by
  obtain ⟨_,_,_,phase,_⟩ :=
    pollEvent_cases p true {s with phase := .idle, rx := if p.kX2522Plus then s.rx.repostReleased p else s.rx}
  exact phase

theorem acquire_phase (p : Params) (s : State) (frameLen : BitVec 32) : (acquire p s frameLen).1.phase = s.phase := by
  obtain ⟨after,same,result⟩ := acquire_cases p s frameLen
  have polled : after.phase = s.phase := by
    rcases same with same | same
    · rw [same]
    · rw [same]
      exact (pollEvent_cases p false s).choose_spec.choose_spec.2.1
  rcases result with ⟨claimed,_⟩ | ⟨refused,_⟩
  · rw [claimed]
    exact polled
  · rw [refused]
    exact polled

theorem pollTxTimestamp_phase (p : Params) (s : State) : (pollTxTimestamp p s).1.phase = s.phase := by
  unfold pollTxTimestamp
  split
  · rfl
  · dsimp only
    split
    · rfl
    · rfl

private theorem step_polling {op : Op} (moved : step p s op = some t) (polling : t.phase.polling = true) :
    t.rx.held = s.rx.held ∧ (s.phase.polling = true ∨ s.rx.held = false) := by
  have quiet {phase : Phase} (idle : phase = .idle) : phase.polling ≠ true := by
    rw [idle]
    decide
  obtain ⟨_,_,_,phase,_⟩ := pollEvent_cases p false s
  cases step_action moved with
  | acquire frameLen idle => exact absurd polling (quiet ((acquire_phase p s frameLen).trans idle))
  | txSequence idle | hwRxTimestamp idle | release idle | commitDirect idle => exact absurd polling (quiet idle)
  | commitBegin | transmitOk | transmitFailed | spinHit => cases polling
  | transmitAgain busy =>
    rw [phase,busy] at polling
    cases polling
  | tryReceive _ _ free => exact ⟨rfl,.inr free⟩
  | spinOn k spinning =>
    refine ⟨rfl,.inl ?_⟩
    rw [spinning]
    rfl
  | miss => exact absurd polling (quiet (miss_phase p s))
  | pollTxTimestamp idle => exact absurd polling (quiet ((pollTxTimestamp_phase p s).trans idle))
  | rxFrameComplete idle => exact absurd polling (quiet (phase.trans idle))
  | land landed =>
    obtain ⟨id,_,ok⟩ := Option.bind_eq_some_iff.mp landed
    obtain ⟨_,same⟩ := Option.ite_none_right_eq_some.mp ok
    cases same
    exact ⟨rfl,.inl polling⟩
  | report => exact ⟨rfl,.inl polling⟩

theorem RxInv.step (inv : RxInv p rx) {later : Rx} {phase : Phase} (free : phase.polling = true → rx.held = false)
    (moved : RxStep p phase rx later) : RxInv p later := by
  cases moved with
  | same => exact inv
  | push => exact inv.push
  | repost _ plus => exact inv.repostLoop plus _
  | repostPush _ plus => exact (inv.repostLoop plus _).push
  | hit k here set =>
    have none : rx.held = false := free (by rw [here]; rfl)
    have more := inv.ring.landed_of_marker inv.slots none set
    exact ⟨inv.ring.hit none more,inv.slots.hit inv.ring none,inv.prompt⟩
  | release _ held => exact inv.release held
  | land _ bytes landed =>
    obtain ⟨id,front,ok⟩ := Option.bind_eq_some_iff.mp landed
    obtain ⟨⟨long,short⟩,same⟩ := Option.ite_none_right_eq_some.mp ok
    cases same
    exact ⟨(inv.ring.land front bytes _).2,inv.slots.land inv.ring front long short,inv.prompt⟩
  | report count =>
    obtain ⟨ring,slots,prompt⟩ := inv
    exact ⟨{ring with},{slots with},prompt⟩

structure Receiving (p : Params) (s : State) : Prop where
  rx : RxInv p s.rx
  free : s.phase.polling = true → s.rx.held = false

theorem Receiving.step {op : Op} (inv : Receiving p s) (moved : step p s op = some t) : Receiving p t := by
  refine ⟨inv.rx.step inv.free (step_rx moved),?_⟩
  intro polling
  obtain ⟨same,begun⟩ := step_polling moved polling
  rw [same]
  rcases begun with before | free
  · exact inv.free before
  · exact free

theorem receiving_of_run (receives : p.hasRx = true) {ops : List Op} (ran : run (step p) (start p) ops = some s) :
    Receiving p s := by
  apply reachable_invariant (Receiving p) (fun _ _ _ inv moved => inv.step moved) _ ran
  exact ⟨.start receives,fun polling => nomatch polling⟩

theorem RxRing.places_eq (ring : RxRing p rx) : rx.places = ids p rx.pushed p.nbRxBufs := by
  have full := ring.full
  have initedLe := ring.initedLe
  have repostLe := ring.repostLe
  have count := ring.heldCount
  have behind := ring.behind
  have start : rx.pushed + rx.inited.length = rx.reposts.length := by
    unfold Rx.pushed
    omega
  have waiting : rx.releases.drop rx.reposts.length = ids p rx.reposts.length (rx.releases.length - rx.reposts.length) := by
    conv_lhs => rw [ring.releases,ids,WrappingCounter.window_drop repostLe,Nat.zero_add]
    rfl
  have hand : rx.inHand = ids p rx.releases.length rx.held.toNat := by
    cases held : rx.held with
    | false => simp [Rx.inHand,held,ids]
    | true =>
      simp only [Rx.inHand,held,if_true,Bool.toNat_true,ids,WrappingCounter.window_succ,WrappingCounter.window_zero]
      rw [(ring.held_releases held).2]
  have landed : (rx.landings.drop rx.returned.length).map Prod.fst =
      ids p rx.returned.length (rx.landings.length - rx.returned.length) := by
    rw [List.map_drop,ring.landed,ids,WrappingCounter.window_drop behind,Nat.zero_add]
    rfl
  rw [Rx.places,waiting,hand,landed]
  conv_lhs => rw [ring.inited,ring.posted]
  -- Each list starts where the one before it ends.
  rw [ids_append (by omega),ids_append (by omega),ids_append (by omega),ids_append (by omega)]
  congr 1
  omega

theorem marker_iff (ring : RxRing p rx) (slots : RxSlots p rx) (none : rx.held = false) :
    marker p (rx.slots rx.nextIdx.toNat) ≠ 0 ↔
      ∃ landing, rx.landings[rx.returned.length]? = some landing ∧ etherMarker p landing.2 ≠ 0 := by
  have count := ring.heldCount
  rw [none,Bool.toNat_false,Nat.add_zero] at count
  have same (landing : BitVec 32 × List Byte) (front : rx.landings[rx.returned.length]? = some landing) :
      marker p (rx.slots rx.nextIdx.toNat) = etherMarker p landing.2 := by
    rw [ring.nextIdx,slotId_toNat]
    exact marker_of_content (slots.sizes _ landing front).1 (slots.content _ landing count.le front)
  constructor
  · intro set
    have front := List.getElem?_eq_getElem (ring.landed_of_marker slots none set)
    refine ⟨_,front,?_⟩
    rw [← same _ front]
    exact set
  · intro ⟨landing,front,set⟩
    rw [same landing front]
    exact set

private theorem spin_held_iff (none : s.rx.held = false) {k : Nat} :
    (spin p s k).1.rx.held = true ↔ marker p (s.rx.slots s.rx.nextIdx.toNat) ≠ 0 := by
  unfold spin
  dsimp only
  split
  next set => exact ⟨fun _ => set,fun _ => rfl⟩
  next clear =>
    constructor
    · intro held
      dsimp only at held
      rw [none] at held
      cases held
    · intro set
      exact absurd set clear

/-- What every run keeps of the receive ring, if no frame lands with a zero ethertype:
each slot is in one place, posted slots have their marker clear, frames come back once
and in landing order as soon as they are there, re-posts follow the releases, and the
pending count is that of the descriptors not pushed. -/
theorem receive_slots_conserved (receives : p.hasRx = true) {ops : List Op}
    (ran : run (step p) (start p) ops = some s) (marked : ∀ landing ∈ s.rx.landings, etherMarker p landing.2 ≠ 0) :
    (s.rx.places.map BitVec.toNat).Perm (List.range p.nbRxBufs) ∧
    (∀ id ∈ s.rx.posted, marker p (s.rx.slots id.toNat) = 0) ∧
    s.rx.returned.length ≤ s.rx.landings.length ∧
    (∀ (n : Nat) (id : BitVec 32) (frame : List Byte), s.rx.returned[n]? = some (id,frame) →
      ∃ bytes, s.rx.landings[n]? = some (id,bytes) ∧ frame.take (bytes.length - p.rxPrefix) = bytes.drop p.rxPrefix) ∧
    (∀ k, s.phase = .spinning k →
      ((spin p s k).1.rx.held = true ↔ s.rx.returned.length < s.rx.landings.length)) ∧
    s.rx.reposts <+: s.rx.releases ∧ (p.tuning = .Generic → s.rx.reposts = s.rx.releases) ∧
    s.rx.pendingPush.toNat = s.rx.inited.length := by
  obtain ⟨⟨ring,slots,prompt⟩,free⟩ := receiving_of_run receives ran
  have small := nbRxBufs_le p
  refine ⟨?_,?_,ring.behind,?_,?_,?_,?_,?_⟩
  · rw [ring.places_eq]
    exact WrappingCounter.window_perm (by omega)
  · intro id member
    have full := ring.full
    have low := ring.pushed_le
    have behind := ring.behind
    have count := ring.heldCount
    rw [ring.posted,ids,WrappingCounter.window,List.mem_map] at member
    obtain ⟨n,inside,rfl⟩ := member
    have range := List.mem_range'_1.mp inside
    rw [slotId_toNat]
    exact slots.cleared n (by omega) (by omega) (.inr range.1)
  · intro n id frame found
    obtain ⟨inside,_⟩ := List.getElem?_eq_some_iff.mp found
    have behind := ring.behind
    have landed := List.getElem?_eq_getElem (by omega : n < s.rx.landings.length)
    have same : id = s.rx.landings[n].1 := (ids_getElem? ring.returned found).trans (ids_getElem? ring.landed landed).symm
    refine ⟨s.rx.landings[n].2,?_,slots.seen n (id,frame) _ found landed⟩
    rw [same]
    exact landed
  · intro k here
    have none := free (by rw [here]; rfl)
    rw [spin_held_iff none,marker_iff ring slots none]
    constructor
    · rintro ⟨landing,front,_⟩
      exact (List.getElem?_eq_some_iff.mp front).1
    · intro more
      exact ⟨_,List.getElem?_eq_getElem more,marked _ (List.getElem_mem more)⟩
  · rw [ring.reposts,ring.releases,ids,ids,← WrappingCounter.window_take ring.repostLe]
    exact List.take_prefix _ _
  · intro generic
    apply prompt
    rw [Params.kX2522Plus,generic]
    rfl
  · have most := ring.inited_le
    rw [ring.pending,WrappingCounter.ofNat_toNat_mod,Nat.mod_eq_of_lt (by omega)]

def labFrame (etherType : List Byte) : List Byte := List.replicate 26 1 ++ etherType

def labReceive : List Op :=
  [.land (labFrame [8,0]),.tryReceive,.spin,.release,.tryReceive] ++ List.replicate 8 .spin ++
    [.miss,.land (labFrame [0,6]),.tryReceive]

theorem receive_slots_conserved_repost :
    ∃ s, run (step (labPort .X2522Plus)) (start (labPort .X2522Plus)) labReceive = some s ∧
      s.rx.inited = [0] ∧ s.rx.landings.length = 2 ∧ (s.rx.places.map BitVec.toNat).Perm (List.range 8) := by
  have shown : (run (step (labPort .X2522Plus)) (start (labPort .X2522Plus)) labReceive).map (fun s =>
      (s.rx.landings.all (fun landing => decide (etherMarker (labPort .X2522Plus) landing.2 ≠ 0)),
        s.rx.inited,s.rx.landings.length)) = some (true,[0],2) := by decide +kernel
  obtain ⟨final,ran,parts⟩ := Option.map_eq_some_iff.mp shown
  obtain ⟨marked,rest⟩ := Prod.mk.inj parts
  obtain ⟨inited,count⟩ := Prod.mk.inj rest
  have nonzero : ∀ landing ∈ final.rx.landings, etherMarker (labPort .X2522Plus) landing.2 ≠ 0 := by
    intro landing member
    exact of_decide_eq_true (List.all_eq_true.mp marked landing member)
  exact ⟨final,ran,inited,count,(receive_slots_conserved rfl ran nonzero).1⟩

theorem repostLoop_logs (p : Params) (rx : Rx) (fuel : Nat) :
    (rx.repostLoop p fuel).returned = rx.returned ∧ (rx.repostLoop p fuel).landings = rx.landings ∧
      (rx.repostLoop p fuel).reported = rx.reported := by
  induction fuel generalizing rx with
  | zero => exact ⟨rfl,rfl,rfl⟩
  | succ fuel ih =>
    unfold Rx.repostLoop
    split
    · exact ⟨rfl,rfl,rfl⟩
    · exact ih (rx.repost p)

theorem release_logs (p : Params) (rx : Rx) :
    (rx.release p).returned = rx.returned ∧ (rx.release p).landings = rx.landings ∧
      (rx.release p).reported = rx.reported := by
  unfold Rx.release
  dsimp only
  split
  · exact ⟨rfl,rfl,rfl⟩
  · split
    · exact ⟨rfl,rfl,rfl⟩
    · exact ⟨rfl,rfl,rfl⟩

theorem RxStep.logs {later : Rx} {phase : Phase} (moved : RxStep p phase rx later) :
    rx.landings <+: later.landings ∧
      (later.returned = rx.returned ∨ ∃ k, phase = .spinning k ∧ marker p (rx.slots rx.nextIdx.toNat) ≠ 0) := by
  cases moved with
  | repost =>
    obtain ⟨returned,landings,_⟩ := repostLoop_logs p rx (rx.released - rx.reposted).toNat
    exact ⟨⟨[],(List.append_nil _).trans landings.symm⟩,.inl returned⟩
  | repostPush =>
    obtain ⟨returned,landings,_⟩ := repostLoop_logs p rx (rx.released - rx.reposted).toNat
    exact ⟨⟨[],(List.append_nil _).trans landings.symm⟩,.inl returned⟩
  | hit k here set => exact ⟨List.prefix_rfl,.inr ⟨k,here,set⟩⟩
  | release =>
    obtain ⟨returned,landings,_⟩ := release_logs p rx
    exact ⟨⟨[],(List.append_nil _).trans landings.symm⟩,.inl returned⟩
  | land _ bytes landed =>
    obtain ⟨id,_,ok⟩ := Option.bind_eq_some_iff.mp landed
    obtain ⟨_,same⟩ := Option.ite_none_right_eq_some.mp ok
    cases same
    exact ⟨List.prefix_append _ _,.inl rfl⟩
  | _ => exact ⟨List.prefix_rfl,.inl rfl⟩

theorem RxStep.reposts_eq {later : Rx} {phase : Phase} (moved : RxStep p phase rx later) (plus : p.kX2522Plus = true)
    (waited : phase ≠ .missed) : later.reposts = rx.reposts := by
  cases moved with
  | repost missed => exact absurd missed waited
  | repostPush missed => exact absurd missed waited
  | release =>
    unfold Rx.release
    dsimp only
    rw [if_pos plus]
    rfl
  | land _ bytes landed =>
    obtain ⟨id,_,ok⟩ := Option.bind_eq_some_iff.mp landed
    obtain ⟨_,same⟩ := Option.ite_none_right_eq_some.mp ok
    cases same
    rfl
  | _ => rfl

/-- The next `tryReceive` finds the frame at its first look and returns the slot. -/
def Delivers (p : Params) (s : State) : Prop :=
  ∃ t, run (step p) s [.tryReceive,.spin] = some t ∧
    t.rx.returned.map Prod.fst = s.rx.returned.map Prod.fst ++ [s.rx.nextIdx] ∧ t.rx.heldId = s.rx.nextIdx

private theorem delivers_iff (receives : p.hasRx = true) (idle : s.phase = .idle) (none : s.rx.held = false) :
    Delivers p s ↔ marker p (s.rx.slots s.rx.nextIdx.toNat) ≠ 0 := by
  have called : step p s .tryReceive = some {s with phase := .spinning 0} := by
    simp [step,exec,idle,receives,none]
  have looked : run (step p) s [.tryReceive,.spin] = some (spin p {s with phase := .spinning 0} 0).1 := by
    rw [run_cons,called]
    rfl
  constructor
  · intro delivered clear
    obtain ⟨t,ran,returned,_⟩ := delivered
    rw [looked,spin] at ran
    dsimp only at ran
    rw [if_neg (not_not.mpr clear)] at ran
    cases ran
    have lengths := congrArg List.length returned
    simp at lengths
  · intro set
    refine ⟨_,looked,?_⟩
    simp only [spin,ne_eq,set,not_false_eq_true,if_true,Rx.hit,List.map_append,List.map_cons,List.map_nil]
    exact ⟨trivial,trivial⟩

private theorem returned_stuck (inv : Receiving p s) {landing : BitVec 32 × List Byte}
    (front : s.rx.landings[s.rx.returned.length]? = some landing) (zero : etherMarker p landing.2 = 0) {ops : List Op}
    (ran : run (step p) s ops = some t) : t.rx.returned = s.rx.returned := by
  have stuck : Receiving p t ∧ t.rx.landings[s.rx.returned.length]? = some landing ∧ t.rx.returned = s.rx.returned := by
    apply reachable_invariant (fun t => Receiving p t ∧ t.rx.landings[s.rx.returned.length]? = some landing ∧
      t.rx.returned = s.rx.returned) _ ⟨inv,front,rfl⟩ ran
    intro now op next ⟨inv,front,same⟩ moved
    obtain ⟨landings,returned⟩ := (step_rx moved).logs
    refine ⟨inv.step moved,log_of_isPrefix landings front,?_⟩
    rcases returned with unchanged | ⟨k,here,set⟩
    · rw [unchanged,same]
    · have none := inv.free (by rw [here]; rfl)
      obtain ⟨other,found,nonzero⟩ := (marker_iff inv.rx.ring inv.rx.slots none).mp set
      rw [same,front] at found
      cases found
      exact absurd zero nonzero
  exact stuck.2.2

/-- Payload polling delivers a landed frame if and only if its ethertype is not zero:
with no such frame on the wire the next `tryReceive` returns the oldest landed frame,
in every state; at such a frame no later call returns anything again. -/
theorem front_frame_delivered_iff (receives : p.hasRx = true) {ops : List Op} (ran : run (step p) (start p) ops = some s)
    (idle : s.phase = .idle) (none : s.rx.held = false) :
    ((∀ landing ∈ s.rx.landings, etherMarker p landing.2 ≠ 0) → s.rx.returned.length < s.rx.landings.length →
      Delivers p s) ∧
    ∀ landing, s.rx.landings[s.rx.returned.length]? = some landing →
      ((Delivers p s ↔ etherMarker p landing.2 ≠ 0) ∧
        (etherMarker p landing.2 = 0 → ∀ later t, run (step p) s later = some t → t.rx.returned = s.rx.returned)) := by
  have inv := receiving_of_run receives ran
  rw [delivers_iff receives idle none,marker_iff inv.rx.ring inv.rx.slots none]
  refine ⟨?_,?_⟩
  · intro marked more
    exact ⟨_,List.getElem?_eq_getElem more,marked _ (List.getElem_mem more)⟩
  · intro landing front
    refine ⟨?_,?_⟩
    · constructor
      · intro ⟨other,found,set⟩
        rw [front] at found
        cases found
        exact set
      · intro set
        exact ⟨landing,front,set⟩
    · intro zero later t continued
      exact returned_stuck inv front zero continued

def labDelivery : List Op := [.land (labFrame [8,0]),.land (labFrame [0,6]),.report (.rxMulti [0,1])]

theorem front_frame_delivered_iff_ipv4 :
    ∃ s, run (step (labPort .Generic)) (start (labPort .Generic)) labDelivery = some s ∧ Delivers (labPort .Generic) s := by
  have shown : (run (step (labPort .Generic)) (start (labPort .Generic)) labDelivery).map (fun s =>
      (s.phase,s.rx.held,s.rx.landings.all (fun landing => decide (etherMarker (labPort .Generic) landing.2 ≠ 0)),
        decide (s.rx.returned.length < s.rx.landings.length))) = some (.idle,false,true,true) := by decide +kernel
  obtain ⟨final,ran,parts⟩ := Option.map_eq_some_iff.mp shown
  simp only [Prod.mk.injEq] at parts
  obtain ⟨idle,none,marked,more⟩ := parts
  refine ⟨final,ran,(front_frame_delivered_iff rfl ran idle none).1 ?_ (of_decide_eq_true more)⟩
  intro landing member
  exact of_decide_eq_true (List.all_eq_true.mp marked landing member)

/-- A frame with ethertype zero, reported and drained, with a frame behind it. -/
def labWedge : List Op :=
  [.land (labFrame [0,0]),.report (.rx 0),.land (labFrame [8,0]),.report (.rx 1),.tryReceive,.spin,.miss]

theorem zero_ethertype_undeliverable :
    ∃ s t, run (step (labPort .Generic)) (start (labPort .Generic)) labWedge = some s ∧ s.phase = .idle ∧
      s.rx.landings.length = 2 ∧ s.rx.reported = 2 ∧ s.evs = [] ∧ s.evq = [] ∧
      run (step (labPort .Generic)) s [.tryReceive,.spin,.miss] = some t ∧ t.phase = .idle ∧
      t.rx.returned = [] ∧ t.rx.nextIdx = 0 := by
  have before : (run (step (labPort .Generic)) (start (labPort .Generic)) labWedge).map (fun s =>
      (s.phase,s.rx.landings.length,s.rx.reported,s.evs,s.evq)) = some (.idle,2,2,[],[]) := by decide +kernel
  have after : (run (step (labPort .Generic)) (start (labPort .Generic)) (labWedge ++ [.tryReceive,.spin,.miss])).map
      (fun t => (t.phase,t.rx.returned,t.rx.nextIdx)) = some (.idle,[],0) := by decide +kernel
  obtain ⟨s,ran,first⟩ := Option.map_eq_some_iff.mp before
  obtain ⟨t,continued,second⟩ := Option.map_eq_some_iff.mp after
  rw [run_append,ran] at continued
  simp only [Prod.mk.injEq] at first second
  obtain ⟨idle,landed,reported,batch,queue⟩ := first
  exact ⟨s,t,ran,idle,landed,reported,batch,queue,continued,second⟩

end Abtrda3.EfVi

