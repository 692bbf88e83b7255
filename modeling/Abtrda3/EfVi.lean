import Abtrda3.Application
import Abtrda3.Semantics.ByteMemory
import Abtrda3.Semantics.Machine
import Abtrda3.Semantics.WrappingCounter
import Mathlib.Logic.Function.Basic

/-! The ef_vi backend `EtherFabricVirtualInterface` with payload polling, in both
tunings, next to the card and libciul. A call that waits on the card is cut where the
card may step in: between two reads of the marker, before the event queue is looked at
on a miss, and between two attempts of a send. The logs (`sent`, `stamps`, `polled`,
`landings`, `returned`, `releases`, `reposts`) only remember; no code reads them. -/
namespace Abtrda3.EfVi
open Abtrda3.Application Abtrda3.Semantics Abtrda3.Semantics.Machine

inductive EtherFabricMode
  | RxOnly
  | TxOnly
  | RxTx
  deriving DecidableEq, Repr

inductive EfViTuning
  | Generic
  | X2522Plus
  deriving DecidableEq, Repr

inductive RxDiscard
  | csumBad
  | mcastMismatch
  | crcBad
  | trunc
  | rights
  deriving DecidableEq, Repr

inductive Event
  | rx (id : BitVec 32)
  | tx (ids : List (BitVec 32)) (ctpio : Bool)
  | txWithTimestamp (id nsec : BitVec 32) (nsecFrac16 : BitVec 16) (ctpio : Bool)
  | rxDiscard (id : BitVec 32) (subtype : RxDiscard)
  | rxMulti (ids : List (BitVec 32))
  | rxMultiDiscard (ids : List (BitVec 32))
  | txError (id : BitVec 32)
  | other
  deriving DecidableEq, Repr

structure Params where
  mode : EtherFabricMode
  rxBits : Nat
  txBits : Nat
  bufSize : BitVec 32
  useCtpio : Bool
  hwTimestamps : Bool
  tuning : EfViTuning
  rxPrefix : Nat
  -- How many of the waiting events `ef_eventq_poll` is willing to hand over.
  eventqPoll : List Event → Nat
  rxMultiple : 3 ≤ rxBits
  rxBound : rxBits < 16
  txBound : txBits < 16
  prefixRoom : rxPrefix + 14 ≤ bufSize.toNat
  stampInPrefix : hwTimestamps = true → 14 ≤ rxPrefix
  tuned : tuning = .X2522Plus → hwTimestamps = true ∧ useCtpio = true

namespace Params

def nbRxBufs (p : Params) : Nat := 2^p.rxBits

def nbTxBufs (p : Params) : Nat := 2^p.txBits

def hasRx (p : Params) : Bool := p.mode = .RxOnly || p.mode = .RxTx

def hasTx (p : Params) : Bool := p.mode = .TxOnly || p.mode = .RxTx

def kX2522Plus (p : Params) : Bool := p.tuning = .X2522Plus

def kMarkerSpins (p : Params) : Nat := if p.kX2522Plus then 8 else 1

end Params

def kEvPollBatch : Nat := 8

def kRxPrefixTsOffset : Nat := 10

structure Send where
  slot : BitVec 32
  seq : BitVec 32
  deriving DecidableEq, Repr

structure Tx where
  head : BitVec 32
  tail : BitVec 32
  slot : BitVec 32
  len : BitVec 32
  stamp : Nat → BitVec 64
  tsCursor : BitVec 32
  acquired : Bool
  sent : List Send
  stamps : List (BitVec 32)
  polled : List TxStamp

structure Rx where
  heldId : BitVec 32
  nextIdx : BitVec 32
  pendingPush : BitVec 32
  released : BitVec 32
  reposted : BitVec 32
  tsRaw : BitVec 32
  slots : Nat → ByteMemory
  held : Bool
  inited : List (BitVec 32)
  posted : List (BitVec 32)
  landings : List (BitVec 32 × List Byte)
  reported : Nat
  returned : List (BitVec 32 × List Byte)
  releases : List (BitVec 32)
  reposts : List (BitVec 32)

structure Stats where
  ctpioWins : BitVec 64
  ctpioFallbacks : BitVec 64
  fallbackPerSlot : Nat → BitVec 64
  rxPollHits : BitVec 64
  rxEvReconciled : BitVec 64
  rxDiscards : BitVec 64
  rxCrcBad : BitVec 64
  txErrors : BitVec 64
  evUnexpected : BitVec 64
  txTsOverflow : BitVec 64
  txTsEvents : BitVec 64

inductive Phase
  | idle
  | spinning (k : Nat)
  | missed
  | committing
  deriving DecidableEq, Repr

structure State where
  phase : Phase
  tx : Tx
  rx : Rx
  stats : Stats
  evs : List Event
  evq : List Event

def rxIds (p : Params) : List (BitVec 32) := (List.range p.nbRxBufs).map (BitVec.ofNat 32)

def start (p : Params) : State where
  phase := .idle
  tx := ⟨0,0,0,0,fun _ => 0,0,false,[],[],[]⟩
  rx := ⟨0,0,0,0,0,0,fun _ _ => 0,false,[],if p.hasRx then rxIds p else [],[],0,[],[],[]⟩
  stats := ⟨0,0,fun _ => 0,0,0,0,0,0,0,0,0⟩
  evs := []
  evq := []

def packStamp (seq minor : BitVec 32) : BitVec 64 := (seq.setWidth 64 <<< 32) ||| minor.setWidth 64

def txIndex (p : Params) (id : BitVec 32) : Nat := (id &&& (BitVec.ofNat 32 p.nbTxBufs - 1)).toNat

def txMinor (nsec : BitVec 32) (nsecFrac16 : BitVec 16) : BitVec 32 := nsec * 4 + (nsecFrac16 >>> 14).setWidth 32

/-- One completion: its stamp goes to the entry of `id`, under the sequence `m_txTail`. -/
def Tx.complete (p : Params) (tx : Tx) (id minor : BitVec 32) : Tx :=
  {tx with stamp := Function.update tx.stamp (txIndex p id) (packStamp tx.tail minor), tail := tx.tail + 1}

def Stats.txDone (p : Params) (stats : Stats) (ids : List (BitVec 32)) (ctpio : Bool) : Stats :=
  let n := BitVec.ofNat 64 ids.length
  if p.useCtpio && ctpio then {stats with ctpioWins := stats.ctpioWins + n}
  else if p.useCtpio then
    {stats with ctpioFallbacks := stats.ctpioFallbacks + n,
                fallbackPerSlot := ids.foldl (fun slots id =>
                  Function.update slots (txIndex p id) (slots (txIndex p id) + 1)) stats.fallbackPerSlot}
  else {stats with ctpioFallbacks := stats.ctpioFallbacks + n}

def Stats.handleDiscard (stats : Stats) (subtype : RxDiscard) : Stats :=
  {stats with rxDiscards := stats.rxDiscards + 1,
              rxCrcBad := if subtype = .crcBad then stats.rxCrcBad + 1 else stats.rxCrcBad}

def handle (p : Params) (s : State) : Event → State
  | .rx _ => {s with stats := {s.stats with rxEvReconciled := s.stats.rxEvReconciled + 1}}
  | .tx ids ctpio =>
    {s with tx := if p.hwTimestamps && p.hasTx then
                    ids.foldl (fun tx _ => tx.complete p tx.tail kTxStampNone) s.tx
                  else {s.tx with tail := s.tx.tail + BitVec.ofNat 32 ids.length},
            stats := s.stats.txDone p ids ctpio}
  | .txWithTimestamp id nsec nsecFrac16 ctpio =>
    if p.hwTimestamps && p.hasTx then
      let stats := s.stats.txDone p [id] ctpio
      {s with tx := s.tx.complete p id (txMinor nsec nsecFrac16),
              stats := {stats with txTsEvents := stats.txTsEvents + 1}}
    else {s with stats := {s.stats with evUnexpected := s.stats.evUnexpected + 1}}
  | .rxDiscard _ subtype => {s with stats := s.stats.handleDiscard subtype}
  | .rxMulti ids =>
    {s with stats := {s.stats with rxEvReconciled := s.stats.rxEvReconciled + BitVec.ofNat 64 ids.length}}
  | .rxMultiDiscard ids =>
    {s with stats := ids.foldl (fun stats _ => stats.handleDiscard .csumBad) s.stats}
  | .txError _ =>
    {s with tx := if p.hwTimestamps && p.hasTx then s.tx.complete p s.tx.tail kTxStampNone
                  else {s.tx with tail := s.tx.tail + 1},
            stats := {s.stats with txErrors := s.stats.txErrors + 1}}
  | .other => {s with stats := {s.stats with evUnexpected := s.stats.evUnexpected + 1}}

def drain (p : Params) (s : State) : State := {s.evs.foldl (handle p) s with evs := []}

/-- In libciul a push hands over the largest multiple of eight descriptors. -/
def Rx.receivePush (rx : Rx) : Rx :=
  let n := rx.inited.length / 8 * 8
  {rx with posted := rx.posted ++ rx.inited.take n, inited := rx.inited.drop n}

def Rx.receiveInit (rx : Rx) (id : BitVec 32) : Rx :=
  {rx with inited := rx.inited ++ [id], reposts := rx.reposts ++ [id]}

def Rx.push (rx : Rx) : Rx :=
  {rx.receivePush with pendingPush := rx.pendingPush &&& 7}

def pollEvent (p : Params) (wantRx : Bool) (s : State) : State :=
  let s := drain p s
  if s.evq = [] then
    if p.hasRx && wantRx && decide (8 ≤ s.rx.pendingPush) then {s with rx := s.rx.push} else s
  else
    let n := min kEvPollBatch (p.eventqPoll s.evq)
    drain p {s with evs := s.evq.take n, evq := s.evq.drop n}

def txRoom (p : Params) (tx : Tx) : Bool := decide (tx.head - tx.tail < BitVec.ofNat 32 p.nbTxBufs)

def Tx.claim (p : Params) (tx : Tx) (frameLen : BitVec 32) : Tx :=
  {tx with slot := tx.head &&& (BitVec.ofNat 32 p.nbTxBufs - 1), len := frameLen, acquired := true}

def acquire (p : Params) (s : State) (frameLen : BitVec 32) : State × Reply :=
  if p.kX2522Plus then ({s with tx := s.tx.claim p frameLen},.flag true)
  else if p.bufSize < frameLen then (s,.flag false)
  else
    let s := if txRoom p s.tx then s else pollEvent p false s
    if txRoom p s.tx then ({s with tx := s.tx.claim p frameLen},.flag true)
    else (s,.flag false)

def Tx.transmitted (tx : Tx) : Tx :=
  {tx with sent := tx.sent ++ [⟨tx.slot,tx.head⟩], head := tx.head + 1, acquired := false}

def marker (p : Params) (memory : ByteMemory) : BitVec 16 :=
  BitVec.ofNat 16 (loadBytes (memory.read (p.rxPrefix + 12) 2) 0 2)

def rxTimestamp (memory : ByteMemory) : BitVec 32 := loadU32 (memory.read kRxPrefixTsOffset 4) 0

def Rx.hit (p : Params) (rx : Rx) : Rx :=
  let memory := rx.slots rx.nextIdx.toNat
  {rx with heldId := rx.nextIdx, nextIdx := (rx.nextIdx + 1) &&& (BitVec.ofNat 32 p.nbRxBufs - 1),
           tsRaw := if p.hwTimestamps && !p.kX2522Plus then rxTimestamp memory else rx.tsRaw, held := true,
           returned := rx.returned ++ [(rx.nextIdx,memory.read p.rxPrefix (p.bufSize.toNat - p.rxPrefix))]}

def Rx.clearMarker (p : Params) (rx : Rx) : Rx :=
  let memory := rx.slots rx.heldId.toNat
  {rx with slots := Function.update rx.slots rx.heldId.toNat (memory.write (p.rxPrefix + 12) [0,0]),
           held := false, releases := rx.releases ++ [rx.heldId]}

def Rx.release (p : Params) (rx : Rx) : Rx :=
  let rx := rx.clearMarker p
  if p.kX2522Plus then {rx with released := rx.released + 1}
  else
    let rx : Rx := {rx.receiveInit rx.heldId with pendingPush := rx.pendingPush + 1}
    if 64 ≤ rx.pendingPush then rx.push else rx

def Rx.repost (p : Params) (rx : Rx) : Rx :=
  {rx.receiveInit (rx.reposted &&& (BitVec.ofNat 32 p.nbRxBufs - 1)) with
    reposted := rx.reposted + 1, pendingPush := rx.pendingPush + 1}

def Rx.repostLoop (p : Params) : Nat → Rx → Rx
  | 0, rx => rx
  | fuel + 1, rx => if rx.reposted = rx.released then rx else repostLoop p fuel (rx.repost p)

def Rx.repostReleased (p : Params) (rx : Rx) : Rx := rx.repostLoop p (rx.released - rx.reposted).toNat

def pollTxTimestamp (p : Params) (s : State) : State × Reply :=
  if s.tx.tsCursor = s.tx.tail then (s,.stamp none)
  else
    let entry := s.tx.stamp (txIndex p s.tx.tsCursor)
    let seq := (entry >>> 32).setWidth 32
    if seq ≠ s.tx.tsCursor then
      ({s with tx := {s.tx with tsCursor := s.tx.tail},
               stats := {s.stats with txTsOverflow := s.stats.txTsOverflow + 1}},.stamp none)
    else
      let stamp : TxStamp := ⟨seq,entry.setWidth 32⟩
      ({s with tx := {s.tx with tsCursor := s.tx.tsCursor + 1, polled := s.tx.polled ++ [stamp]}},
        .stamp (some stamp))

def hwRxTimestamp (p : Params) (s : State) : BitVec 32 :=
  if p.kX2522Plus then rxTimestamp (s.rx.slots s.rx.heldId.toNat) else s.rx.tsRaw

inductive Rc
  | ok
  | again
  | failed
  deriving DecidableEq, Repr

inductive Op
  | acquire (frameLen : BitVec 32)
  | txSequence
  | commit
  | transmit (rc : Rc)
  | tryReceive
  | spin
  | miss
  | release
  | pollTxTimestamp
  | hwRxTimestamp
  | rxFrameComplete
  | land (bytes : List Byte)
  | report (event : Event)
  deriving DecidableEq, Repr

def Event.completed : Event → List (BitVec 32 × BitVec 32)
  | .tx ids _ => ids.map (·,kTxStampNone)
  | .txWithTimestamp id nsec nsecFrac16 _ => [(id,txMinor nsec nsecFrac16)]
  | .txError id => [(id,kTxStampNone)]
  | _ => []

def Event.arrived : Event → List (BitVec 32)
  | .rx id => [id]
  | .rxDiscard id _ => [id]
  | .rxMulti ids => ids
  | .rxMultiDiscard ids => ids
  | _ => []

def Event.stamped : Event → Bool
  | .txWithTimestamp .. => true
  | _ => false

/-- Completions come in send order and arrivals in landing order, each reported once. -/
def Reportable (p : Params) (s : State) (event : Event) : Prop :=
  event.completed.map Prod.fst <+: (s.tx.sent.drop s.tx.stamps.length).map Send.slot ∧
    event.arrived <+: (s.rx.landings.drop s.rx.reported).map Prod.fst ∧
    (event.stamped = true → p.hwTimestamps = true)

instance (p : Params) (s : State) (event : Event) : Decidable (Reportable p s event) :=
  inferInstanceAs (Decidable (_ ∧ _ ∧ _))

def land (p : Params) (rx : Rx) (bytes : List Byte) : Option Rx :=
  rx.posted.head?.bind fun id =>
    if p.rxPrefix + 14 ≤ bytes.length ∧ bytes.length ≤ p.bufSize.toNat then
      some {rx with posted := rx.posted.tail, landings := rx.landings ++ [(id,bytes)],
                    slots := Function.update rx.slots id.toNat ((rx.slots id.toNat).write 0 bytes)}
    else none

def report (s : State) (event : Event) : State :=
  {s with evq := s.evq ++ [event],
          tx := {s.tx with stamps := s.tx.stamps ++ event.completed.map Prod.snd},
          rx := {s.rx with reported := s.rx.reported + event.arrived.length}}

def spin (p : Params) (s : State) (k : Nat) : State × Option Reply :=
  let memory := s.rx.slots s.rx.nextIdx.toNat
  if marker p memory ≠ 0 then
    ({s with phase := .idle, rx := s.rx.hit p,
             stats := {s.stats with rxPollHits := s.stats.rxPollHits + 1}},
      some (.frame (memory.read p.rxPrefix (p.bufSize.toNat - p.rxPrefix))))
  else ({s with phase := if k + 1 < p.kMarkerSpins then .spinning (k + 1) else .missed},none)

def miss (p : Params) (s : State) : State :=
  pollEvent p true {s with phase := .idle, rx := if p.kX2522Plus then s.rx.repostReleased p else s.rx}

def transmit (p : Params) (s : State) : Rc → State × Option Reply
  | .ok => ({s with phase := .idle, tx := s.tx.transmitted},some .done)
  | .again => (pollEvent p false s,none)
  | .failed =>
    ({s with phase := .idle, tx := {s.tx with acquired := false},
             stats := {s.stats with txErrors := s.stats.txErrors + 1}},some .done)

def commit (p : Params) (s : State) : State × Option Reply :=
  if p.kX2522Plus then ({s with tx := s.tx.transmitted},some .done)
  else ({s with phase := .committing},none)

def rxFrameComplete (p : Params) (s : State) : State × Reply :=
  let s := pollEvent p false s
  (s,.flag (decide (s.stats.rxPollHits ≤ s.stats.rxEvReconciled)))

def exec (p : Params) (s : State) : Op → Option (State × Option Reply)
  | .acquire frameLen =>
    if s.phase = .idle ∧ p.hasTx = true ∧ s.tx.acquired = false then
      some ((acquire p s frameLen).1,some (acquire p s frameLen).2)
    else none
  | .txSequence =>
    if s.phase = .idle ∧ p.hasTx = true ∧ p.hwTimestamps = true then some (s,some (.word s.tx.head)) else none
  | .commit => if s.phase = .idle ∧ s.tx.acquired = true then some (commit p s) else none
  | .transmit rc => if s.phase = .committing then some (transmit p s rc) else none
  | .tryReceive =>
    if s.phase = .idle ∧ p.hasRx = true ∧ s.rx.held = false then some ({s with phase := .spinning 0},none) else none
  | .spin =>
    match s.phase with
    | .spinning k => some (spin p s k)
    | _ => none
  | .miss => if s.phase = .missed then some (miss p s,some (.frame [])) else none
  | .release =>
    if s.phase = .idle ∧ s.rx.held = true then some ({s with rx := s.rx.release p},some .done) else none
  | .pollTxTimestamp =>
    if s.phase = .idle ∧ p.hasTx = true ∧ p.hwTimestamps = true then
      some ((pollTxTimestamp p s).1,some (pollTxTimestamp p s).2)
    else none
  | .hwRxTimestamp =>
    if s.phase = .idle ∧ p.hasRx = true ∧ p.hwTimestamps = true then some (s,some (.word (hwRxTimestamp p s)))
    else none
  | .rxFrameComplete =>
    if s.phase = .idle ∧ p.hasRx = true ∧ p.hwTimestamps = true then
      some ((rxFrameComplete p s).1,some (rxFrameComplete p s).2)
    else none
  | .land bytes => (land p s.rx bytes).map fun rx => ({s with rx := rx},none)
  | .report event => if Reportable p s event then some (report s event,none) else none

def step (p : Params) (s : State) (op : Op) : Option State := (exec p s op).map Prod.fst

def completed (events : List Event) : List (BitVec 32 × BitVec 32) := events.flatMap Event.completed

def processed (s : State) : Nat := s.tx.stamps.length - (completed (s.evs ++ s.evq)).length

def outstanding (s : State) : List Send := s.tx.sent.drop (processed s)

variable {p : Params}

/-- All that an operation can do, with what it needs. -/
inductive Action (p : Params) (s : State) : Op → State → Prop
  | acquire (frameLen : BitVec 32) (idle : s.phase = .idle) (sender : p.hasTx = true) (free : s.tx.acquired = false) :
      Action p s (.acquire frameLen) (acquire p s frameLen).1
  | txSequence (idle : s.phase = .idle) (sender : p.hasTx = true) (hw : p.hwTimestamps = true) :
      Action p s .txSequence s
  | commitDirect (idle : s.phase = .idle) (acquired : s.tx.acquired = true) (plus : p.kX2522Plus = true) :
      Action p s .commit {s with tx := s.tx.transmitted}
  | commitBegin (idle : s.phase = .idle) (acquired : s.tx.acquired = true) (generic : p.kX2522Plus = false) :
      Action p s .commit {s with phase := .committing}
  | transmitOk (busy : s.phase = .committing) :
      Action p s (.transmit .ok) {s with phase := .idle, tx := s.tx.transmitted}
  | transmitAgain (busy : s.phase = .committing) : Action p s (.transmit .again) (pollEvent p false s)
  | transmitFailed (busy : s.phase = .committing) : Action p s (.transmit .failed)
      {s with phase := .idle, tx := {s.tx with acquired := false},
              stats := {s.stats with txErrors := s.stats.txErrors + 1}}
  | tryReceive (idle : s.phase = .idle) (receiver : p.hasRx = true) (free : s.rx.held = false) :
      Action p s .tryReceive {s with phase := .spinning 0}
  | spinHit (k : Nat) (spinning : s.phase = .spinning k) (set : marker p (s.rx.slots s.rx.nextIdx.toNat) ≠ 0) :
      Action p s .spin
      {s with phase := .idle, rx := s.rx.hit p, stats := {s.stats with rxPollHits := s.stats.rxPollHits + 1}}
  | spinOn (k : Nat) (spinning : s.phase = .spinning k) (clear : marker p (s.rx.slots s.rx.nextIdx.toNat) = 0) :
      Action p s .spin {s with phase := if k + 1 < p.kMarkerSpins then .spinning (k + 1) else .missed}
  | miss (missed : s.phase = .missed) : Action p s .miss (miss p s)
  | release (idle : s.phase = .idle) (held : s.rx.held = true) : Action p s .release {s with rx := s.rx.release p}
  | pollTxTimestamp (idle : s.phase = .idle) (sender : p.hasTx = true) (hw : p.hwTimestamps = true) :
      Action p s .pollTxTimestamp (pollTxTimestamp p s).1
  | hwRxTimestamp (idle : s.phase = .idle) (receiver : p.hasRx = true) (hw : p.hwTimestamps = true) :
      Action p s .hwRxTimestamp s
  | rxFrameComplete (idle : s.phase = .idle) (receiver : p.hasRx = true) (hw : p.hwTimestamps = true) :
      Action p s .rxFrameComplete (pollEvent p false s)
  | land {bytes : List Byte} {rx : Rx} (landed : land p s.rx bytes = some rx) :
      Action p s (.land bytes) {s with rx := rx}
  | report {event : Event} (ready : Reportable p s event) : Action p s (.report event) (report s event)

theorem step_action {s t : State} {op : Op} (moved : step p s op = some t) : Action p s op t := by
  obtain ⟨⟨_,reply⟩,ran,rfl⟩ := Option.map_eq_some_iff.mp moved
  cases op with
  | acquire frameLen =>
    obtain ⟨⟨idle,sender,free⟩,same⟩ := Option.ite_none_right_eq_some.mp ran
    cases same
    exact .acquire frameLen idle sender free
  | txSequence =>
    obtain ⟨⟨idle,sender,hw⟩,same⟩ := Option.ite_none_right_eq_some.mp ran
    cases same
    exact .txSequence idle sender hw
  | commit =>
    obtain ⟨⟨idle,acquired⟩,same⟩ := Option.ite_none_right_eq_some.mp ran
    unfold commit at same
    split at same
    next plus =>
      cases same
      exact .commitDirect idle acquired plus
    next generic =>
      cases same
      exact .commitBegin idle acquired (Bool.not_eq_true _ ▸ generic)
  | transmit rc =>
    obtain ⟨busy,same⟩ := Option.ite_none_right_eq_some.mp ran
    cases rc with
    | ok =>
      cases same
      exact .transmitOk busy
    | again =>
      cases same
      exact .transmitAgain busy
    | failed =>
      cases same
      exact .transmitFailed busy
  | tryReceive =>
    obtain ⟨⟨idle,receiver,free⟩,same⟩ := Option.ite_none_right_eq_some.mp ran
    cases same
    exact .tryReceive idle receiver free
  | spin =>
    simp only [exec] at ran
    split at ran
    next k spinning =>
      unfold spin at ran
      dsimp only at ran
      split at ran
      next set =>
        cases ran
        exact .spinHit k spinning set
      next clear =>
        cases ran
        exact .spinOn k spinning (Decidable.not_not.mp clear)
    · cases ran
  | miss =>
    obtain ⟨missed,same⟩ := Option.ite_none_right_eq_some.mp ran
    cases same
    exact .miss missed
  | release =>
    obtain ⟨⟨idle,held⟩,same⟩ := Option.ite_none_right_eq_some.mp ran
    cases same
    exact .release idle held
  | pollTxTimestamp =>
    obtain ⟨⟨idle,sender,hw⟩,same⟩ := Option.ite_none_right_eq_some.mp ran
    cases same
    exact .pollTxTimestamp idle sender hw
  | hwRxTimestamp =>
    obtain ⟨⟨idle,receiver,hw⟩,same⟩ := Option.ite_none_right_eq_some.mp ran
    cases same
    exact .hwRxTimestamp idle receiver hw
  | rxFrameComplete =>
    obtain ⟨⟨idle,receiver,hw⟩,same⟩ := Option.ite_none_right_eq_some.mp ran
    cases same
    exact .rxFrameComplete idle receiver hw
  | land bytes =>
    obtain ⟨rx,landed,same⟩ := Option.map_eq_some_iff.mp ran
    cases same
    exact .land landed
  | report event =>
    obtain ⟨ready,same⟩ := Option.ite_none_right_eq_some.mp ran
    cases same
    exact .report ready

private theorem handle_keeps (p : Params) (s : State) (event : Event) :
    (handle p s event).phase = s.phase ∧ (handle p s event).rx = s.rx ∧ (handle p s event).evs = s.evs ∧
      (handle p s event).evq = s.evq ∧
      ∃ stamp tail, (handle p s event).tx = {s.tx with stamp := stamp, tail := tail} := by
  have completes (ids : List (BitVec 32)) (tx : Tx) :
      ∃ stamp tail, ids.foldl (fun tx _ => tx.complete p tx.tail kTxStampNone) tx =
        {tx with stamp := stamp, tail := tail} := by
    induction ids generalizing tx with
    | nil => exact ⟨tx.stamp,tx.tail,rfl⟩
    | cons id rest ih => exact ih (tx.complete p tx.tail kTxStampNone)
  cases event with
  | tx ids ctpio =>
    refine ⟨rfl,rfl,rfl,rfl,?_⟩
    simp only [handle]
    split
    · exact completes ids s.tx
    · exact ⟨_,_,rfl⟩
  | txWithTimestamp id nsec nsecFrac16 ctpio =>
    simp only [handle]
    split
    · exact ⟨rfl,rfl,rfl,rfl,_,_,rfl⟩
    · exact ⟨rfl,rfl,rfl,rfl,_,_,rfl⟩
  | txError id =>
    refine ⟨rfl,rfl,rfl,rfl,?_⟩
    simp only [handle]
    split
    · exact ⟨_,_,rfl⟩
    · exact ⟨_,_,rfl⟩
  | _ => exact ⟨rfl,rfl,rfl,rfl,_,_,rfl⟩

theorem handleAll_keeps (p : Params) (s : State) (events : List Event) :
    (events.foldl (handle p) s).phase = s.phase ∧ (events.foldl (handle p) s).rx = s.rx ∧
      (events.foldl (handle p) s).evs = s.evs ∧ (events.foldl (handle p) s).evq = s.evq ∧
      ∃ stamp tail, (events.foldl (handle p) s).tx = {s.tx with stamp := stamp, tail := tail} := by
  induction events generalizing s with
  | nil => exact ⟨rfl,rfl,rfl,rfl,s.tx.stamp,s.tx.tail,rfl⟩
  | cons event rest ih =>
    obtain ⟨phase,rx,evs,evq,_,_,tx⟩ := handle_keeps p s event
    obtain ⟨laterPhase,laterRx,laterEvs,laterEvq,stamp,tail,laterTx⟩ := ih (handle p s event)
    refine ⟨laterPhase.trans phase,laterRx.trans rx,laterEvs.trans evs,laterEvq.trans evq,stamp,tail,?_⟩
    rw [List.foldl_cons,laterTx,tx]

private theorem handle_tx_eq (p : Params) {s t : State} (same : s.tx = t.tx) (event : Event) :
    (handle p s event).tx = (handle p t event).tx := by
  cases event with
  | txWithTimestamp id nsec nsecFrac16 ctpio =>
    simp only [handle]
    split
    · exact congrArg (fun tx => Tx.complete p tx id (txMinor nsec nsecFrac16)) same
    · exact same
  | _ => simp only [handle,same]

private theorem handleAll_tx_eq (p : Params) {s t : State} (same : s.tx = t.tx) (events : List Event) :
    (events.foldl (handle p) s).tx = (events.foldl (handle p) t).tx := by
  induction events generalizing s t with
  | nil => exact same
  | cons event rest ih => exact ih (handle_tx_eq p same event)

/-- All that `pollEvent` can do: work off the local batch and some events of the queue,
and, only when none was waiting, push descriptors. -/
theorem pollEvent_cases (p : Params) (wantRx : Bool) (s : State) :
    ∃ drained rest, s.evq = drained ++ rest ∧
      (pollEvent p wantRx s).phase = s.phase ∧ (pollEvent p wantRx s).evs = [] ∧
      (pollEvent p wantRx s).evq = rest ∧
      (pollEvent p wantRx s).tx = ((s.evs ++ drained).foldl (handle p) s).tx ∧
      ((pollEvent p wantRx s).rx = s.rx ∨
        wantRx = true ∧ 8 ≤ s.rx.pendingPush ∧ (pollEvent p wantRx s).rx = s.rx.push) := by
  obtain ⟨phase,rx,_,evq,_⟩ := handleAll_keeps p s s.evs
  have sameQueue : (drain p s).evq = s.evq := evq
  have sameRx : (drain p s).rx = s.rx := rx
  simp only [pollEvent]
  split
  next empty =>
    refine ⟨[],[],?_,?_⟩
    · rw [← sameQueue,empty]
      rfl
    · rw [List.append_nil]
      split
      next enough =>
        simp only [Bool.and_eq_true,decide_eq_true_eq] at enough
        rw [← sameRx]
        exact ⟨phase,rfl,empty,rfl,.inr ⟨enough.1.2,enough.2,rfl⟩⟩
      · exact ⟨phase,rfl,empty,rfl,.inl sameRx⟩
  · rw [sameQueue]
    generalize min kEvPollBatch (p.eventqPoll s.evq) = n
    obtain ⟨laterPhase,laterRx,_,laterEvq,_⟩ :=
      handleAll_keeps p {drain p s with evs := s.evq.take n, evq := s.evq.drop n} (s.evq.take n)
    refine ⟨s.evq.take n,s.evq.drop n,(List.take_append_drop n s.evq).symm,laterPhase.trans phase,rfl,laterEvq,?_,
      .inl (laterRx.trans rx)⟩
    rw [List.foldl_append]
    change ((s.evq.take n).foldl (handle p) _).tx = _
    apply handleAll_tx_eq
    rfl

theorem acquire_cases (p : Params) (s : State) (frameLen : BitVec 32) :
    ∃ after, (after = s ∨ after = pollEvent p false s) ∧
      ((acquire p s frameLen = ({after with tx := after.tx.claim p frameLen},.flag true) ∧
          (p.kX2522Plus = true ∨ txRoom p after.tx = true)) ∨
        (acquire p s frameLen = (after,.flag false) ∧ p.kX2522Plus = false ∧
          (p.bufSize < frameLen ∨ txRoom p after.tx = false))) := by
  unfold acquire
  by_cases plus : p.kX2522Plus = true
  · rw [if_pos plus]
    exact ⟨s,.inl rfl,.inl ⟨rfl,.inl plus⟩⟩
  · have generic := Bool.eq_false_of_not_eq_true plus
    rw [if_neg plus]
    by_cases big : p.bufSize < frameLen
    · rw [if_pos big]
      exact ⟨s,.inl rfl,.inr ⟨rfl,generic,.inl big⟩⟩
    · rw [if_neg big]
      refine ⟨if txRoom p s.tx then s else pollEvent p false s,?_,?_⟩
      · split
        · exact .inl rfl
        · exact .inr rfl
      · generalize (if txRoom p s.tx then s else pollEvent p false s) = after
        cases room : txRoom p after.tx with
        | true => exact .inl ⟨by simp only [room,if_true],.inr rfl⟩
        | false => exact .inr ⟨by simp only [room,Bool.false_eq_true,if_false],generic,.inr rfl⟩

def labPort (tuning : EfViTuning) : Params where
  mode := .RxTx
  rxBits := 3
  txBits := 1
  bufSize := 64
  useCtpio := true
  hwTimestamps := true
  tuning := tuning
  rxPrefix := 14
  eventqPoll := List.length
  rxMultiple := by decide
  rxBound := by decide
  txBound := by decide
  prefixRoom := by decide
  stampInPrefix := fun _ => by decide
  tuned := fun _ => ⟨rfl,rfl⟩

end Abtrda3.EfVi
