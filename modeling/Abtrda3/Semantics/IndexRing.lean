import Abtrda3.Semantics.WrappingCounter
import Mathlib.Logic.Function.Basic

/-! A ring shared by two parties through a producer and a consumer index of width `w`.
The owner of one end keeps cached copies of both indices and reads the other side's
index again only when its copy shows too little. `Producing` and `Consuming` relate
such a ring to the list of its published entries and to unbounded counts. -/
namespace Abtrda3.Semantics

structure IndexRing (w : Nat) (α : Type) where
  size : BitVec w
  cachedProd : BitVec w
  cachedCons : BitVec w
  producer : BitVec w
  consumer : BitVec w
  slots : Nat → α

namespace IndexRing

variable {w : Nat} {α : Type}

def slotOf (ring : IndexRing w α) (index : BitVec w) : Nat := (index &&& (ring.size - 1)).toNat

def entry (ring : IndexRing w α) (index : BitVec w) : α := ring.slots (ring.slotOf index)

def lookFree (ring : IndexRing w α) (count : BitVec w) : IndexRing w α :=
  if count ≤ ring.cachedCons - ring.cachedProd then ring
  else {ring with cachedCons := ring.consumer + ring.size}

def reserve (ring : IndexRing w α) (count : BitVec w) : Option (BitVec w) × IndexRing w α :=
  let ring := ring.lookFree count
  if ring.cachedCons - ring.cachedProd < count then (none,ring)
  else (some ring.cachedProd,{ring with cachedProd := ring.cachedProd + count})

def write (ring : IndexRing w α) (index : BitVec w) (value : α) : IndexRing w α :=
  {ring with slots := Function.update ring.slots (ring.slotOf index) value}

def writeAll (ring : IndexRing w α) (index : BitVec w) : List α → IndexRing w α
  | [] => ring
  | value::rest => (ring.write index value).writeAll (index + 1) rest

def submit (ring : IndexRing w α) (count : BitVec w) : IndexRing w α :=
  {ring with producer := ring.producer + count}

def consume (ring : IndexRing w α) : Option (α × IndexRing w α) :=
  if ring.consumer = ring.producer then none
  else some (ring.entry ring.consumer,{ring with consumer := ring.consumer + 1})

def lookAvail (ring : IndexRing w α) : IndexRing w α :=
  if ring.cachedProd - ring.cachedCons = 0 then {ring with cachedProd := ring.producer} else ring

def peek (ring : IndexRing w α) (count : BitVec w) : BitVec w × BitVec w × IndexRing w α :=
  let ring := ring.lookAvail
  let entries := ring.cachedProd - ring.cachedCons
  let entries := if count < entries then count else entries
  (entries,ring.cachedCons,{ring with cachedCons := ring.cachedCons + entries})

def release (ring : IndexRing w α) (count : BitVec w) : IndexRing w α :=
  {ring with consumer := ring.consumer + count}

def produce (ring : IndexRing w α) (value : α) : Option (IndexRing w α) :=
  if ring.producer - ring.consumer < ring.size then
    some {ring.write ring.producer value with producer := ring.producer + 1}
  else none

def between (ring : IndexRing w α) (first last : BitVec w) : List α :=
  (List.range (last - first).toNat).map (fun i => ring.entry (first + BitVec.ofNat w i))

def published (ring : IndexRing w α) : List α := ring.between ring.consumer ring.producer

def unread (ring : IndexRing w α) : List α := ring.between ring.cachedCons ring.producer

def freshProducer (size : BitVec w) (blank : α) : IndexRing w α := ⟨size,0,size,0,0,fun _ => blank⟩

def freshConsumer (size : BitVec w) (blank : α) : IndexRing w α := ⟨size,0,0,0,0,fun _ => blank⟩

section Stored

variable {k : Nat}

def Stored (k : Nat) (ring : IndexRing w α) (low : Nat) (items : List α) : Prop :=
  ∀ i (bound : i < items.length), ring.slots ((low + i) % 2^k) = items[i]

theorem slotOf_ofNat {ring : IndexRing w α} (size : ring.size = BitVec.ofNat w (2^k)) (fits : k ≤ w) (count : Nat) :
    ring.slotOf (BitVec.ofNat w count) = count % 2^k := by
  rw [slotOf,size,WrappingCounter.mask_toNat fits]

theorem stored_write {ring : IndexRing w α} (size : ring.size = BitVec.ofNat w (2^k)) (fits : k ≤ w) {low : Nat}
    {items : List α} (stored : Stored k ring low items) (room : items.length < 2^k) (value : α) :
    Stored k (ring.write (BitVec.ofNat w (low + items.length)) value) low (items ++ [value]) := by
  intro i bound
  rw [List.length_append,List.length_singleton] at bound
  simp only [write,slotOf_ofNat size fits]
  rcases Nat.lt_or_eq_of_le (Nat.le_of_lt_succ bound) with old | new
  · have apart := WrappingCounter.mod_ne_of_window (Nat.add_lt_add_left old low)
      (by omega : low + items.length < low + i + 2^k)
    rw [Function.update_of_ne apart,List.getElem_append_left old]
    exact stored i old
  · subst new
    rw [Function.update_self,List.getElem_append_right (Nat.le_refl _)]
    simp

theorem stored_cons {ring : IndexRing w α} {low : Nat} {value : α} {rest : List α}
    (stored : Stored k ring low (value::rest)) : ring.slots (low % 2^k) = value ∧ Stored k ring (low + 1) rest := by
  constructor
  · exact stored 0 (Nat.zero_lt_succ _)
  · intro i bound
    have here := stored (i + 1) (Nat.succ_lt_succ bound)
    rw [List.getElem_cons_succ] at here
    rw [Nat.add_assoc,Nat.add_comm 1 i]
    exact here

theorem between_eq {ring : IndexRing w α} (size : ring.size = BitVec.ofNat w (2^k)) (fits : k < w) {low first : Nat}
    {items : List α} (stored : Stored k ring low items) (bound : items.length ≤ 2^k) (above : low ≤ first)
    (below : first ≤ low + items.length) :
    ring.between (BitVec.ofNat w first) (BitVec.ofNat w (low + items.length)) = items.drop (first - low) := by
  have near : low + items.length - first < 2^w := by
    have := Nat.pow_lt_pow_right (by omega : 1 < 2) fits
    omega
  have count := WrappingCounter.sub_toNat below near
  apply List.ext_getElem
  · simp only [between,List.length_map,List.length_range,List.length_drop,count]
    omega
  · intro i left right
    have inside : first - low + i < items.length := by
      rw [List.length_drop] at right
      omega
    simp only [between,List.getElem_map,List.getElem_range,List.getElem_drop,entry,← BitVec.ofNat_add]
    rw [slotOf_ofNat size fits.le,← stored _ inside]
    congr 2
    omega

end Stored

structure Producing (k : Nat) (ring : IndexRing w α) (consumed reserved known : Nat) (items pending : List α) : Prop where
  fits : k < w
  size : ring.size = BitVec.ofNat w (2^k)
  consumer : ring.consumer = BitVec.ofNat w consumed
  producer : ring.producer = BitVec.ofNat w (consumed + items.length)
  cachedProd : ring.cachedProd = BitVec.ofNat w reserved
  cachedCons : ring.cachedCons = BitVec.ofNat w known
  written : consumed + items.length + pending.length ≤ reserved
  backed : reserved ≤ known
  bounded : known ≤ consumed + 2^k
  stored : Stored k ring consumed (items ++ pending)

namespace Producing

variable {k consumed reserved known : Nat} {ring : IndexRing w α} {items pending : List α}

theorem fresh (fits : k < w) (blank : α) :
    Producing k (freshProducer (BitVec.ofNat w (2^k)) blank) 0 0 (2^k) [] [] := by
  refine ⟨fits,rfl,rfl,rfl,rfl,rfl,Nat.le_refl _,Nat.zero_le _,by omega,?_⟩
  intro i bound
  exact absurd bound (Nat.not_lt_zero i)

theorem reserve (producing : Producing k ring consumed reserved known items pending) {count : Nat}
    (room : reserved + count ≤ consumed + 2^k) :
    ∃ later next, ring.reserve (BitVec.ofNat w count) = (some (BitVec.ofNat w reserved),next) ∧
      Producing k next consumed (reserved + count) later items pending := by
  obtain ⟨fits,size,consumer,producer,cachedProd,cachedCons,written,backed,bounded,stored⟩ := producing
  have power := Nat.pow_lt_pow_right (by omega : 1 < 2) fits
  have asked : (BitVec.ofNat w count).toNat = count := by
    rw [BitVec.toNat_ofNat,Nat.mod_eq_of_lt (by omega)]
  have free {later : Nat} (order : reserved ≤ later) (close : later ≤ consumed + 2^k) :
      (BitVec.ofNat w later - BitVec.ofNat w reserved).toNat = later - reserved :=
    WrappingCounter.sub_toNat order (by omega)
  unfold IndexRing.reserve lookFree
  rw [cachedCons,cachedProd]
  by_cases enough : BitVec.ofNat w count ≤ BitVec.ofNat w known - BitVec.ofNat w reserved
  · have wide : reserved + count ≤ known := by
      rw [BitVec.le_def,asked,free backed bounded] at enough
      omega
    refine ⟨known,{ring with cachedProd := BitVec.ofNat w (reserved + count)},?_,?_⟩
    · rw [if_pos enough]
      dsimp only
      rw [cachedCons,cachedProd,if_neg (by rw [BitVec.not_lt]; exact enough),BitVec.ofNat_add]
    · exact ⟨fits,size,consumer,producer,rfl,cachedCons,by omega,wide,bounded,stored⟩
  · -- The cached index shows too little; the refreshed one shows every freed slot.
    have fresh : ring.consumer + ring.size = BitVec.ofNat w (consumed + 2^k) := by
      rw [consumer,size,BitVec.ofNat_add]
    have shown : ¬ BitVec.ofNat w (consumed + 2^k) - BitVec.ofNat w reserved < BitVec.ofNat w count := by
      rw [BitVec.lt_def,asked,free (by omega) (Nat.le_refl _)]
      omega
    refine ⟨consumed + 2^k,⟨ring.size,BitVec.ofNat w (reserved + count),BitVec.ofNat w (consumed + 2^k),ring.producer,
      ring.consumer,ring.slots⟩,?_,?_⟩
    · rw [if_neg enough]
      dsimp only
      rw [fresh,if_neg shown,← BitVec.ofNat_add]
    · exact ⟨fits,size,consumer,producer,rfl,rfl,by omega,room,Nat.le_refl _,stored⟩

theorem write (producing : Producing k ring consumed reserved known items pending)
    (unwritten : consumed + items.length + pending.length < reserved) (value : α) :
    Producing k (ring.write (BitVec.ofNat w (consumed + items.length + pending.length)) value) consumed reserved known
      items (pending ++ [value]) := by
  obtain ⟨fits,size,consumer,producer,cachedProd,cachedCons,written,backed,bounded,stored⟩ := producing
  refine ⟨fits,size,consumer,producer,cachedProd,cachedCons,?_,backed,bounded,?_⟩
  · rw [List.length_append,List.length_singleton]
    omega
  · have added := stored_write size fits.le stored (by rw [List.length_append]; omega) value
    rw [List.length_append,← Nat.add_assoc,List.append_assoc] at added
    exact added

theorem writeAll (producing : Producing k ring consumed reserved known items pending) (values : List α)
    (unwritten : consumed + items.length + pending.length + values.length ≤ reserved) :
    Producing k (ring.writeAll (BitVec.ofNat w (consumed + items.length + pending.length)) values) consumed reserved
      known items (pending ++ values) := by
  induction values generalizing ring pending with
  | nil => simpa [IndexRing.writeAll] using producing
  | cons value rest ih =>
    rw [List.length_cons] at unwritten
    have one := producing.write (by omega) value
    have more := ih one (by rw [List.length_append,List.length_singleton]; omega)
    rw [List.length_append,List.length_singleton,← Nat.add_assoc,List.append_assoc] at more
    rw [IndexRing.writeAll,WrappingCounter.ofNat_succ]
    exact more

theorem submit (producing : Producing k ring consumed reserved known items pending) :
    Producing k (ring.submit (BitVec.ofNat w pending.length)) consumed reserved known (items ++ pending) [] := by
  obtain ⟨fits,size,consumer,producer,cachedProd,cachedCons,written,backed,bounded,stored⟩ := producing
  refine ⟨fits,size,consumer,?_,cachedProd,cachedCons,?_,backed,bounded,?_⟩
  · rw [IndexRing.submit,producer,List.length_append,← BitVec.ofNat_add,Nat.add_assoc]
  · rw [List.length_append,List.length_nil]
    omega
  · rw [List.append_nil]
    exact stored

theorem consume (producing : Producing k ring consumed reserved known items pending) {value : α}
    {next : IndexRing w α} (taken : ring.consume = some (value,next)) :
    ∃ rest, items = value :: rest ∧ Producing k next (consumed + 1) reserved known rest pending := by
  obtain ⟨fits,size,consumer,producer,cachedProd,cachedCons,written,backed,bounded,stored⟩ := producing
  unfold IndexRing.consume at taken
  split at taken
  · contradiction
  next apart =>
  cases items with
  | nil =>
    rw [consumer,producer] at apart
    exact absurd rfl apart
  | cons first rest =>
    obtain ⟨here,later⟩ := stored_cons stored
    cases Option.some.inj taken
    have value : ring.entry ring.consumer = first := by
      rw [entry,consumer,slotOf_ofNat size fits.le,here]
    refine ⟨rest,by rw [value],fits,size,?_,?_,cachedProd,cachedCons,?_,backed,by omega,later⟩
    · rw [consumer,WrappingCounter.ofNat_succ]
    · rw [producer,List.length_cons]
      congr 1
      omega
    · rw [List.length_cons] at written
      omega

theorem published_eq (producing : Producing k ring consumed reserved known items pending) : ring.published = items := by
  obtain ⟨fits,size,consumer,producer,_,_,written,backed,bounded,stored⟩ := producing
  have held : Stored k ring consumed items := by
    intro i bound
    rw [stored i (by rw [List.length_append]; omega),List.getElem_append_left bound]
  have whole := between_eq size fits held (by omega) (Nat.le_refl consumed) (Nat.le_add_right _ _)
  rw [published,consumer,producer,whole,Nat.sub_self,List.drop_zero]

end Producing

structure Consuming (k : Nat) (ring : IndexRing w α) (consumed taken seen : Nat) (items : List α) : Prop where
  fits : k < w
  size : ring.size = BitVec.ofNat w (2^k)
  consumer : ring.consumer = BitVec.ofNat w consumed
  producer : ring.producer = BitVec.ofNat w (consumed + items.length)
  cachedProd : ring.cachedProd = BitVec.ofNat w seen
  cachedCons : ring.cachedCons = BitVec.ofNat w taken
  behind : consumed ≤ taken
  shown : taken ≤ seen
  backed : seen ≤ consumed + items.length
  bounded : items.length ≤ 2^k
  stored : Stored k ring consumed items

namespace Consuming

variable {k consumed taken seen : Nat} {ring : IndexRing w α} {items : List α}

theorem fresh (fits : k < w) (blank : α) :
    Consuming k (freshConsumer (BitVec.ofNat w (2^k)) blank) 0 0 0 [] := by
  refine ⟨fits,rfl,rfl,rfl,rfl,rfl,Nat.le_refl _,Nat.le_refl _,Nat.le_refl _,Nat.zero_le _,?_⟩
  intro i bound
  exact absurd bound (Nat.not_lt_zero i)

theorem lookAvail (consuming : Consuming k ring consumed taken seen items) :
    ∃ later, Consuming k ring.lookAvail consumed taken later items ∧
      (later = taken → taken = consumed + items.length) := by
  obtain ⟨fits,size,consumer,producer,cachedProd,cachedCons,behind,shown,backed,bounded,stored⟩ := consuming
  have power := Nat.pow_lt_pow_right (by omega : 1 < 2) fits
  have gap := WrappingCounter.sub_toNat shown (by omega : seen - taken < 2^w)
  unfold IndexRing.lookAvail
  split
  · next empty =>
    exact ⟨consumed + items.length,⟨fits,size,consumer,producer,producer,cachedCons,behind,by omega,Nat.le_refl _,
      bounded,stored⟩,Eq.symm⟩
  · next some =>
    refine ⟨seen,⟨fits,size,consumer,producer,cachedProd,cachedCons,behind,shown,backed,bounded,stored⟩,?_⟩
    intro same
    rw [cachedProd,cachedCons,same,BitVec.sub_self] at some
    exact absurd rfl some

/-- A look for one entry finds one exactly when one is published beyond those taken. -/
theorem peek_one (consuming : Consuming k ring consumed taken seen items) :
    (taken = consumed + items.length ∧ (ring.peek 1).1 = 0 ∧
      ∃ later, Consuming k (ring.peek 1).2.2 consumed taken later items) ∨
    (taken < consumed + items.length ∧ (ring.peek 1).1 = 1 ∧ (ring.peek 1).2.1 = BitVec.ofNat w taken ∧
      ∃ later, Consuming k (ring.peek 1).2.2 consumed (taken + 1) later items) := by
  obtain ⟨later,looked,last⟩ := consuming.lookAvail
  obtain ⟨fits,size,consumer,producer,cachedProd,cachedCons,behind,shown,backed,bounded,stored⟩ := looked
  have power := Nat.pow_lt_pow_right (by omega : 1 < 2) fits
  have one : (1 : BitVec w).toNat = 1 := by
    have := Nat.one_lt_two_pow (by omega : w ≠ 0)
    simp [Nat.mod_eq_of_lt this]
  have gap := WrappingCounter.sub_toNat shown (by omega : later - taken < 2^w)
  simp only [IndexRing.peek]
  rw [cachedProd,cachedCons]
  by_cases empty : later = taken
  · left
    have all := last empty
    have nothing : BitVec.ofNat w later - BitVec.ofNat w taken = 0#w := by rw [empty,BitVec.sub_self]
    have small : ¬ (1 : BitVec w) < 0#w := by simp [BitVec.lt_def]
    rw [nothing,if_neg small]
    refine ⟨all,rfl,later,fits,size,consumer,producer,rfl,?_,behind,shown,backed,bounded,stored⟩
    simp
  · right
    have entries : (if (1 : BitVec w) < BitVec.ofNat w later - BitVec.ofNat w taken then 1
        else BitVec.ofNat w later - BitVec.ofNat w taken) = 1 := by
      split
      · rfl
      · next notMore =>
        rw [BitVec.lt_def,one,gap] at notMore
        apply BitVec.eq_of_toNat_eq
        rw [gap,one]
        omega
    rw [entries]
    refine ⟨by omega,rfl,rfl,later,fits,size,consumer,producer,rfl,?_,by omega,by omega,backed,bounded,stored⟩
    exact WrappingCounter.ofNat_succ w taken

theorem release_one (consuming : Consuming k ring consumed taken seen items) (held : consumed < taken) :
    Consuming k (ring.release 1) (consumed + 1) taken seen items.tail := by
  obtain ⟨fits,size,consumer,producer,cachedProd,cachedCons,behind,shown,backed,bounded,stored⟩ := consuming
  cases items with
  | nil =>
    rw [List.length_nil] at backed
    omega
  | cons first rest =>
    rw [List.length_cons] at producer backed bounded
    refine ⟨fits,size,?_,?_,cachedProd,cachedCons,held,shown,?_,?_,(stored_cons stored).2⟩
    · rw [release,consumer,WrappingCounter.ofNat_succ]
    · rw [release,producer,List.tail_cons]
      congr 1
      omega
    · rw [List.tail_cons]
      omega
    · rw [List.tail_cons]
      omega

theorem produce (consuming : Consuming k ring consumed taken seen items) {value : α} {next : IndexRing w α}
    (put : ring.produce value = some next) : Consuming k next consumed taken seen (items ++ [value]) := by
  obtain ⟨fits,size,consumer,producer,cachedProd,cachedCons,behind,shown,backed,bounded,stored⟩ := consuming
  have power := Nat.pow_lt_pow_right (by omega : 1 < 2) fits
  unfold IndexRing.produce at put
  split at put
  · next free =>
    have room : items.length < 2^k := by
      rw [producer,consumer,size,BitVec.lt_def,WrappingCounter.sub_toNat (by omega) (by omega),BitVec.toNat_ofNat,
        Nat.mod_eq_of_lt power] at free
      omega
    cases Option.some.inj put
    refine ⟨fits,size,consumer,?_,cachedProd,cachedCons,behind,shown,?_,?_,?_⟩
    · rw [producer,WrappingCounter.ofNat_succ,List.length_append,List.length_singleton,Nat.add_assoc]
    · rw [List.length_append]
      omega
    · rw [List.length_append,List.length_singleton]
      omega
    · have added := stored_write size fits.le stored room value
      rw [← producer] at added
      exact added
  · contradiction

theorem unread_eq (consuming : Consuming k ring consumed taken seen items) :
    ring.unread = items.drop (taken - consumed) := by
  obtain ⟨fits,size,_,producer,_,cachedCons,behind,shown,backed,bounded,stored⟩ := consuming
  rw [unread,producer,cachedCons]
  exact between_eq size fits stored bounded behind (by omega)

theorem entry_eq (consuming : Consuming k ring consumed taken seen items) {i : Nat} (bound : i < items.length) :
    ring.entry (BitVec.ofNat w (consumed + i)) = items[i] := by
  rw [entry,slotOf_ofNat consuming.size consuming.fits.le]
  exact consuming.stored i bound

end Consuming

end IndexRing

end Abtrda3.Semantics
