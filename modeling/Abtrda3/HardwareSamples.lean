import Abtrda3.HardwareSystem

/-! The samples of `run_client` and `run_server` with hardware timestamps: which frame
the receive stamp of a pair belongs to, and which send its transmit stamp. -/
namespace Abtrda3.HardwareSamples
open Abtrda3.Application Abtrda3.HardwareSystem Abtrda3.Semantics Abtrda3.Semantics.Machine
open Abtrda3.EfVi (Params Rc Op)

variable {p : Params} {port : Port} {later : EfVi.State} {op : Op} {rx tx : BitVec 32}

theorem free_of_idle (idle : port.nic.phase = .idle) : port.nic.phase ≠ .committing := by
  rw [idle]
  exact EfVi.Phase.noConfusion

theorem waited_of_sending (waiting : port.nic.phase = .idle ∨ port.nic.phase = .committing) :
    port.nic.phase ≠ .missed := by
  rcases waiting with waiting | waiting
  · rw [waiting]
    exact EfVi.Phase.noConfusion
  · rw [waiting]
    exact EfVi.Phase.noConfusion

theorem waited_of_idle (idle : port.nic.phase = .idle) : port.nic.phase ≠ .missed := waited_of_sending (.inl idle)

section client

variable {setting : Client.Setting} {c : Client.State} {txSeq seq : BitVec 32}

def request (seq : BitVec 32) : Nat × List Byte := (kOffSeq,storeU32 (htonl seq))

structure Asked (port : Port) (txSeq seq : BitVec 32) : Prop where
  round : Round port txSeq
  carried : port.nic.tx.sent.length = port.sentBefore + 1 → port.carried[port.sentBefore]? = some (request seq)

def Echoed (p : Params) (setting : Client.Setting) (c : Client.State) (port : Port) (rx : BitVec 32) : Prop :=
  port.returnedBefore < port.nic.rx.returned.length ∧
    ∃ frame, Latest p port.nic frame rx ∧ Client.ours setting c frame = true

/-- The round's own frame, sent with stamp `tx`, and the echo of it, received with stamp `rx`. -/
def RoundTrip (p : Params) (setting : Client.Setting) (c : Client.State) (port : Port) (rx tx : BitVec 32) : Prop :=
  port.nic.tx.sent.length = port.sentBefore + 1 ∧ port.carried[port.sentBefore]? = some (request c.seq) ∧
    port.nic.tx.stamps[port.sentBefore]? = some tx ∧
    ∃ n frame, n + 1 = port.nic.rx.returned.length ∧ port.returnedBefore ≤ n ∧ Received p port.nic n frame rx ∧
      Client.ours setting c frame = true

def ClientFact (p : Params) (setting : Client.Setting) (c : Client.State) (port : Port) : Client.Pc → Prop
  | .sequence => port.nic.phase = .idle ∧ port.written = request c.seq
  | .commit => (port.nic.phase = .idle ∨ port.nic.phase = .committing) ∧ port.written = request c.seq ∧
      Round port c.txSeq ∧ port.nic.tx.sent.length = port.sentBefore
  | .receive => port.nic.phase ≠ .committing ∧ Asked port c.txSeq c.seq
  | .releaseOther | .spinStop | .spinTime => port.nic.phase = .idle ∧ Asked port c.txSeq c.seq
  | .releaseEcho _ | .pollStamp => port.nic.phase = .idle ∧ Asked port c.txSeq c.seq ∧ ∃ rx, Echoed p setting c port rx
  | .rxStamp minor => port.nic.phase = .idle ∧
      ∃ rx, Echoed p setting c port rx ∧ RoundTrip p setting c port rx minor
  | .push pair => port.nic.phase = .idle ∧ ∃ rx tx, pair = .hardware rx tx ∧ RoundTrip p setting c port rx tx
  | .sendStamp | .arrival _ => False
  | _ => port.nic.phase = .idle

theorem Asked.keep (asked : Asked port txSeq seq) (sent : later.tx.sent = port.nic.tx.sent)
    (returned : port.nic.rx.returned <+: later.rx.returned) : Asked {port with nic := later} txSeq seq := by
  refine ⟨asked.round.keep sent returned,?_⟩
  dsimp only
  rw [sent]
  exact asked.carried

theorem Echoed.keep (echoed : Echoed p setting c port rx) (keeps : Keeps p port.nic later)
    (waited : port.nic.phase ≠ .missed) : Echoed p setting c {port with nic := later} rx := by
  obtain ⟨fresh,frame,latest,ours⟩ := echoed
  refine ⟨?_,frame,latest.keep keeps waited,ours⟩
  dsimp only
  rw [keeps.returned]
  exact fresh

theorem Echoed.roundTrip (echoed : Echoed p setting c port rx) (asked : Asked port txSeq c.seq)
    (sent : port.nic.tx.sent.length = port.sentBefore + 1) (stamped : port.nic.tx.stamps[port.sentBefore]? = some tx) :
    RoundTrip p setting c port rx tx := by
  obtain ⟨fresh,frame,latest,ours⟩ := echoed
  exact ⟨sent,asked.carried sent,stamped,_,frame,Nat.sub_add_cancel latest.any,Nat.le_sub_one_of_lt fresh,
    latest.received,ours⟩

theorem RoundTrip.keep (trip : RoundTrip p setting c port rx tx) (quiet : Quiet p port.nic later) :
    RoundTrip p setting c {port with nic := later} rx tx := by
  obtain ⟨sent,carried,stamped,n,frame,last,fresh,received,ours⟩ := trip
  refine ⟨?_,carried,log_of_isPrefix quiet.stamps stamped,n,frame,?_,fresh,received.keep quiet.toKeeps,ours⟩
  · dsimp only
    rw [quiet.sent]
    exact sent
  · dsimp only
    rw [quiet.returned]
    exact last

def ClientAt (p : Params) (setting : Client.Setting) (c : Client.State) (port : Port) : Prop :=
  ClientFact p setting c port c.pc

theorem ClientAt.quiet (here : ClientAt p setting c port) (quiet : Quiet p port.nic later) :
    ClientAt p setting c {port with nic := later} := by
  unfold ClientAt at here ⊢
  cases pc : c.pc with
  | sequence =>
    rw [pc] at here
    exact ⟨quiet.phase.trans here.1,here.2⟩
  | commit =>
    rw [pc] at here
    obtain ⟨phase,written,round,sent⟩ := here
    dsimp only [ClientFact]
    rw [quiet.phase,quiet.sent]
    exact ⟨phase,written,round.keep quiet.sent quiet.grows,sent⟩
  | receive =>
    rw [pc] at here
    dsimp only [ClientFact]
    rw [quiet.phase]
    exact ⟨here.1,here.2.keep quiet.sent quiet.grows⟩
  | releaseOther | spinStop | spinTime =>
    rw [pc] at here
    exact ⟨quiet.phase.trans here.1,here.2.keep quiet.sent quiet.grows⟩
  | releaseEcho _ | pollStamp =>
    rw [pc] at here
    obtain ⟨idle,asked,rx,echoed⟩ := here
    exact ⟨quiet.phase.trans idle,asked.keep quiet.sent quiet.grows,rx,
      echoed.keep quiet.toKeeps (waited_of_idle idle)⟩
  | rxStamp minor =>
    rw [pc] at here
    obtain ⟨idle,rx,echoed,trip⟩ := here
    exact ⟨quiet.phase.trans idle,rx,echoed.keep quiet.toKeeps (waited_of_idle idle),trip.keep quiet⟩
  | push pair =>
    rw [pc] at here
    obtain ⟨idle,rx,tx,same,trip⟩ := here
    exact ⟨quiet.phase.trans idle,rx,tx,same,trip.keep quiet⟩
  | sendStamp | arrival _ =>
    rw [pc] at here
    exact here.elim
  | _ =>
    rw [pc] at here
    exact quiet.phase.trans here

private theorem clientAt_spin (idle : port.nic.phase = .idle) (asked : Asked port c.txSeq c.seq) :
    ClientAt p setting (Client.spin c) port := by
  unfold ClientAt Client.spin
  dsimp only
  split
  · exact ⟨idle,asked⟩
  · exact ⟨free_of_idle idle,asked⟩

theorem ClientAt.next (hw : setting.kHwTs = true) (here : ClientAt p setting c port) {call : Call} {reply : Reply}
    {after : Client.State} (called : Client.call setting c = some call)
    (plain : opOf call = none ∨ call = .release ∨ ∃ frameLen, call = .acquire frameLen)
    (moved : Client.next setting c reply = some after) : ClientAt p setting after (port.store call) := by
  unfold ClientAt at here
  unfold Client.call at called
  unfold Client.next at moved
  cases pc : c.pc <;> rw [pc] at here called moved
  case sequence | commit | receive | pollStamp | rxStamp =>
    cases Option.some.inj called
    rcases plain with plain | plain | ⟨_,plain⟩
    · cases plain
    · cases plain
    · cases plain
  case sendStamp | arrival => exact here.elim
  case returned => cases called
  all_goals
    cases Option.some.inj called
    obtain ⟨_,_,rfl⟩ := Option.map_eq_some_iff.mp moved
  case storeSeq =>
    rw [hw,if_pos rfl]
    exact ⟨here,rfl⟩
  case releaseEcho =>
    rw [hw,if_pos rfl]
    exact here
  case releaseOther => exact clientAt_spin here.1 here.2
  case push => exact here.1
  case pace => exact here
  case spinStop =>
    split
    · exact here.1
    · exact here
  case spinTime =>
    split
    · exact here.1
    · exact ⟨free_of_idle here.1,here.2⟩
  case stopCheck =>
    split
    · exact here
    · split
      · exact here
      · exact here
  all_goals
    unfold ClientAt
    dsimp only
    split
    · exact here
    · exact here

section call

variable {call : Call} {rc : Rc} {reply : Option Reply} {t : System Client.State}

theorem ClientAt.sequence (linked : Linked p port) (here : ClientAt p setting c port) (pc : c.pc = .sequence)
    (ran : EfVi.exec p port.nic .txSequence = some (later,reply))
    (resumed : resume (Client.producer setting) c (port.advance .txSequence later) reply = some t) :
    ClientAt p setting t.app t.port := by
  rw [ClientAt,pc] at here
  obtain ⟨idle,written⟩ := here
  obtain ⟨_,same⟩ := Option.ite_none_right_eq_some.mp ran
  cases same
  obtain ⟨_,moved,rfl⟩ := Option.map_eq_some_iff.mp resumed
  simp only [Client.producer,Client.next,pc,Reply.word?,Option.map_some] at moved
  cases moved
  obtain ⟨_,_,sending⟩ := linked.ready.sending
  exact ⟨.inl idle,written,⟨sending.send.head,le_rfl,Nat.le_succ _,le_rfl⟩,rfl⟩

theorem ClientAt.commit (linked : Linked p port) (here : ClientAt p setting c port) (pc : c.pc = .commit)
    (next : nextOp port.nic.phase rc .commit = some op) (ran : EfVi.exec p port.nic op = some (later,reply))
    (resumed : resume (Client.producer setting) c (port.advance op later) reply = some t) :
    ClientAt p setting t.app t.port := by
  rw [ClientAt,pc] at here
  obtain ⟨waiting,written,round,unsent⟩ := here
  obtain ⟨keeps,result⟩ := commit_cases waiting next ran
  have answered {port : Port} (idle : port.nic.phase = .idle) (asked : Asked port c.txSeq c.seq)
      (resumed : resume (Client.producer setting) c port (some .done) = some t) : ClientAt p setting t.app t.port := by
    obtain ⟨_,moved,rfl⟩ := Option.map_eq_some_iff.mp resumed
    simp only [Client.producer,Client.next,pc,Reply.done?,Option.map_some] at moved
    cases moved
    exact ⟨free_of_idle idle,asked⟩
  rcases result with ⟨advanced,same,through⟩ | ⟨advanced,sent,rfl,idle⟩
  · rw [advanced] at resumed
    rcases through with ⟨rfl,waiting⟩ | ⟨rfl,idle⟩
    · cases Option.some.inj resumed
      rw [ClientAt,pc]
      refine ⟨waiting,written,round.keep same keeps.grows,?_⟩
      dsimp only
      rw [same]
      exact unsent
    · apply answered _ _ resumed
      · exact idle
      · refine ⟨round.keep same keeps.grows,?_⟩
        dsimp only
        rw [same,unsent]
        intro impossible
        omega
  · rw [advanced] at resumed
    obtain ⟨round,last⟩ := round.sent linked unsent sent keeps.grows
    apply answered _ _ resumed
    · exact idle
    · exact ⟨round,fun _ => last.trans (congrArg some written)⟩

theorem ClientAt.receive (hw : setting.kHwTs = true) (linked : Linked p port) (here : ClientAt p setting c port)
    (pc : c.pc = .receive) (next : nextOp port.nic.phase rc .tryReceive = some op)
    (ran : EfVi.exec p port.nic op = some (later,reply))
    (resumed : resume (Client.producer setting) c (port.advance op later) reply = some t) :
    ClientAt p setting t.app t.port := by
  rw [ClientAt,pc] at here
  obtain ⟨waiting,asked⟩ := here
  obtain ⟨advanced,same,_,_,result⟩ := receive_cases linked waiting next ran
  rw [advanced] at resumed
  rcases result with ⟨returned,through⟩ | ⟨frame,slot,rx,some,rfl,idle,returned,latest⟩
  · have asked := asked.keep same (returned ▸ List.prefix_rfl)
    rcases through with ⟨rfl,waiting⟩ | ⟨rfl,idle⟩
    · cases Option.some.inj resumed
      rw [ClientAt,pc]
      exact ⟨waiting,asked⟩
    · obtain ⟨_,moved,rfl⟩ := Option.map_eq_some_iff.mp resumed
      simp only [Client.producer,Client.next,pc,Reply.frame?,Option.map_some,if_true] at moved
      cases moved
      exact clientAt_spin idle asked
  · have fresh : port.returnedBefore < later.rx.returned.length := by
      have before := asked.round.returned
      rw [returned,List.length_append,List.length_singleton]
      omega
    have asked := asked.keep same (returned ▸ List.prefix_append _ _)
    obtain ⟨_,moved,rfl⟩ := Option.map_eq_some_iff.mp resumed
    simp only [Client.producer,Client.next,pc,Reply.frame?,Option.map_some,if_neg some,hw,if_true] at moved
    cases moved
    unfold ClientAt Client.classify
    dsimp only
    split
    next ours => exact ⟨idle,asked,rx,fresh,frame,latest,ours⟩
    next => exact ⟨idle,asked⟩

theorem ClientAt.pollStamp (hw : p.hwTimestamps = true) (linked : Linked p port) (fits : Fits p port)
    (here : ClientAt p setting c port) (pc : c.pc = .pollStamp)
    (ran : EfVi.exec p port.nic .pollTxTimestamp = some (later,reply))
    (resumed : resume (Client.producer setting) c (port.advance .pollTxTimestamp later) reply = some t) :
    ClientAt p setting t.app t.port := by
  rw [ClientAt,pc] at here
  obtain ⟨idle,asked,rx,echoed⟩ := here
  have quiet : Quiet p port.nic later := .call ran idle (by simp) (by simp)
  rw [Port.advance_unsent (by simp) quiet.sent] at resumed
  obtain ⟨_,same⟩ := Option.ite_none_right_eq_some.mp ran
  cases same
  have stillIdle := quiet.phase.trans idle
  obtain ⟨_,moved,rfl⟩ := Option.map_eq_some_iff.mp resumed
  simp only [Client.producer,Client.next,pc] at moved
  obtain ⟨stamp,read,rfl⟩ := Option.map_eq_some_iff.mp moved
  have polled := Reply.stamp?_eq_some read
  unfold Client.joinStamp
  cases stamp with
  | none =>
    dsimp only
    split
    · exact stillIdle
    · exact stillIdle
  | some txTs =>
    dsimp only
    by_cases same : txTs.seq = c.txSeq
    · rw [if_neg (not_not.mpr same)]
      split
      · exact stillIdle
      · obtain ⟨sent,stamped⟩ := asked.round.stamp linked hw fits polled same
        have trip := echoed.roundTrip asked sent stamped
        exact ⟨stillIdle,rx,echoed.keep quiet.toKeeps (waited_of_idle idle),trip.keep quiet⟩
    · rw [if_pos same]
      exact ⟨stillIdle,asked.keep quiet.sent quiet.grows,rx,echoed.keep quiet.toKeeps (waited_of_idle idle)⟩

theorem ClientAt.rxStamp (hw : p.hwTimestamps = true) (linked : Linked p port) (here : ClientAt p setting c port)
    {minor : BitVec 32} (pc : c.pc = .rxStamp minor)
    (ran : EfVi.exec p port.nic .hwRxTimestamp = some (later,reply))
    (resumed : resume (Client.producer setting) c (port.advance .hwRxTimestamp later) reply = some t) :
    ClientAt p setting t.app t.port := by
  rw [ClientAt,pc] at here
  obtain ⟨idle,rx,⟨_,_,latest,_⟩,trip⟩ := here
  obtain ⟨_,same⟩ := Option.ite_none_right_eq_some.mp ran
  cases same
  rw [Port.advance_unsent (by simp) rfl,latest.rxTimestamp linked.ready hw] at resumed
  obtain ⟨_,moved,rfl⟩ := Option.map_eq_some_iff.mp resumed
  simp only [Client.producer,Client.next,pc,Reply.word?,Option.map_some] at moved
  cases moved
  exact ⟨idle,rx,minor,rfl,trip⟩

theorem ClientAt.plain (enabled : setting.kHwTs = true) (here : ClientAt p setting c port)
    (idle : port.nic.phase = .idle) (called : Client.call setting c = some call)
    (plain : call = .release ∨ ∃ frameLen, call = .acquire frameLen) (next : nextOp port.nic.phase rc call = some op)
    (ran : EfVi.exec p port.nic op = some (later,reply))
    (resumed : resume (Client.producer setting) c (port.advance op later) reply = some t) :
    ClientAt p setting t.app t.port := by
  obtain ⟨quiet,advanced,answer,rfl⟩ := plain_call idle plain next ran
  rw [advanced] at resumed
  obtain ⟨after,moved,rfl⟩ := Option.map_eq_some_iff.mp resumed
  exact (here.quiet quiet).next enabled called (.inr plain) moved

end call

theorem ClientAt.idle (here : ClientAt p setting c port) (other : c.pc ≠ .commit ∧ c.pc ≠ .receive) :
    port.nic.phase = .idle := by
  unfold ClientAt at here
  cases pc : c.pc <;> rw [pc] at here other
  case commit => exact absurd rfl other.1
  case receive => exact absurd rfl other.2
  case sendStamp | arrival => exact here.elim
  case sequence | releaseOther | spinStop | spinTime | releaseEcho | pollStamp | rxStamp | push => exact here.1
  all_goals exact here

theorem ClientAt.step {s t : System Client.State} (enabled : setting.kHwTs = true) (hw : p.hwTimestamps = true)
    (linked : Linked p s.port) (fits : Fits p s.port) (here : ClientAt p setting s.app s.port)
    (moves : Moves p (Client.producer setting) s t) : ClientAt p setting t.app t.port := by
  cases moves with
  | card later op moved quiet => exact here.quiet quiet
  | answer call reply app called outside next => exact here.next enabled called (.inl outside) next
  | call call rc op later reply _ called next ran resumed =>
    have asks : Client.call setting s.app = some call := called
    unfold Client.call at asks
    cases pc : s.app.pc <;> rw [pc] at asks
    case returned => cases asks
    all_goals
      have same := Option.some.inj asks
      subst same
    case commit => exact here.commit linked pc next ran resumed
    case receive => exact here.receive enabled linked pc next ran resumed
    all_goals
      have idle := here.idle (by rw [pc]; simp)
    case acquire => exact here.plain enabled idle called (.inr ⟨_,rfl⟩) next ran resumed
    case releaseEcho | releaseOther => exact here.plain enabled idle called (.inl rfl) next ran resumed
    all_goals rw [idle] at next
    case sequence =>
      cases next
      exact here.sequence linked pc ran resumed
    case pollStamp =>
      cases next
      exact here.pollStamp hw linked fits pc ran resumed
    case rxStamp =>
      cases next
      exact here.rxStamp hw linked pc ran resumed
    all_goals cases next

private theorem client_run (enabled : setting.kHwTs = true) (duplex : p.mode = .RxTx) (hw : p.hwTimestamps = true)
    {now : BitVec 64} {clock : Timespec} (started : Client.start setting now clock = some c) {events : List Event}
    {s : System Client.State} (fits : Along (step p (Client.producer setting)) (fun s _ => Fits p s.port) (start p c)
      events)
    (ran : run (step p (Client.producer setting)) (start p c) events = some s) :
    Linked p s.port ∧ ClientAt p setting s.app s.port := by
  apply run_invariant (fun s : System Client.State => Linked p s.port ∧ ClientAt p setting s.app s.port) _ _ fits ran
  · intro s event t ⟨linked,here⟩ fits moved
    have moves := step_moves moved
    exact ⟨linked.step moves,here.step enabled hw linked fits moves⟩
  · obtain ⟨_,same⟩ := Option.ite_none_left_eq_some.mp started
    cases same
    exact ⟨⟨.start duplex,rfl⟩,rfl⟩

end client

section server

variable {setting : Server.Setting} {v : Server.State} {txSeq : BitVec 32}

def reflection (frame : List Byte) : Nat × List Byte := (14,sliceOf frame 14 12)

structure InFlight (p : Params) (port : Port) (txSeq rx : BitVec 32) : Prop where
  round : Round port txSeq
  answered : port.nic.tx.sent.length = port.sentBefore + 1 →
    ∃ n frame, n + 1 = port.returnedBefore ∧ Received p port.nic n frame rx ∧
      port.carried[port.sentBefore]? = some (reflection frame)

/-- The last reply, sent with stamp `tx`, and the request it answers, received with stamp `rx`. -/
def Turnaround (p : Params) (port : Port) (rx tx : BitVec 32) : Prop :=
  port.nic.tx.sent.length = port.sentBefore + 1 ∧ port.nic.tx.stamps[port.sentBefore]? = some tx ∧
    ∃ n frame, n + 1 = port.returnedBefore ∧ Received p port.nic n frame rx ∧
      port.carried[port.sentBefore]? = some (reflection frame)

def ServerFact (p : Params) (v : Server.State) (port : Port) : Server.Pc → Prop
  | .poll => port.nic.phase ≠ .committing ∧ InFlight p port v.txSeqInFlight v.rxInFlight
  | .pollStamp | .releaseStop | .outerStop => port.nic.phase = .idle ∧ InFlight p port v.txSeqInFlight v.rxInFlight
  | .push pair => port.nic.phase = .idle ∧ InFlight p port v.txSeqInFlight v.rxInFlight ∧
      ∃ rx tx, pair = .hardware rx tx ∧ Turnaround p port rx tx
  | .acquire frame | .acquireStop frame => port.nic.phase = .idle ∧ InFlight p port v.txSeqInFlight v.rxInFlight ∧
      ∃ rx, Latest p port.nic frame rx
  | .copy frame => port.nic.phase = .idle ∧ ∃ rx, Latest p port.nic frame rx
  | .release | .sequence => port.nic.phase = .idle ∧
      ∃ frame rx, Latest p port.nic frame rx ∧ port.written = reflection frame
  | .commit => (port.nic.phase = .idle ∨ port.nic.phase = .committing) ∧ Round port v.txSeqInFlight ∧
      port.nic.tx.sent.length = port.sentBefore ∧ port.nic.rx.returned.length = port.returnedBefore ∧
      ∃ frame rx, Latest p port.nic frame rx ∧ port.written = reflection frame
  | .stamp => port.nic.phase = .idle ∧ Round port v.txSeqInFlight ∧
      port.nic.rx.returned.length = port.returnedBefore ∧ ∃ frame rx, Latest p port.nic frame rx ∧
      (port.nic.tx.sent.length = port.sentBefore + 1 → port.carried[port.sentBefore]? = some (reflection frame))
  | .finish | .returned => port.nic.phase = .idle

def ServerAt (p : Params) (v : Server.State) (port : Port) : Prop := ServerFact p v port v.pc

theorem InFlight.grow (flight : InFlight p port txSeq rx) (sent : later.tx.sent = port.nic.tx.sent)
    (returned : port.nic.rx.returned <+: later.rx.returned) (landings : port.nic.rx.landings <+: later.rx.landings) :
    InFlight p {port with nic := later} txSeq rx := by
  refine ⟨flight.round.keep sent returned,?_⟩
  dsimp only
  rw [sent]
  intro more
  obtain ⟨n,frame,last,received,carried⟩ := flight.answered more
  exact ⟨n,frame,last,received.grow returned landings,carried⟩

theorem InFlight.quiet (flight : InFlight p port txSeq rx) (quiet : Quiet p port.nic later) :
    InFlight p {port with nic := later} txSeq rx :=
  flight.grow quiet.sent quiet.grows quiet.landings

theorem Turnaround.quiet (turn : Turnaround p port rx tx) (quiet : Quiet p port.nic later) :
    Turnaround p {port with nic := later} rx tx := by
  obtain ⟨sent,stamped,n,frame,last,received,carried⟩ := turn
  refine ⟨?_,log_of_isPrefix quiet.stamps stamped,n,frame,last,received.keep quiet.toKeeps,carried⟩
  dsimp only
  rw [quiet.sent]
  exact sent

theorem ServerAt.quiet (here : ServerAt p v port) (quiet : Quiet p port.nic later) :
    ServerAt p v {port with nic := later} := by
  unfold ServerAt at here ⊢
  cases pc : v.pc with
  | poll =>
    rw [pc] at here
    dsimp only [ServerFact]
    rw [quiet.phase]
    exact ⟨here.1,here.2.quiet quiet⟩
  | pollStamp | releaseStop | outerStop =>
    rw [pc] at here
    exact ⟨quiet.phase.trans here.1,here.2.quiet quiet⟩
  | push pair =>
    rw [pc] at here
    obtain ⟨idle,flight,rx,tx,same,turn⟩ := here
    exact ⟨quiet.phase.trans idle,flight.quiet quiet,rx,tx,same,turn.quiet quiet⟩
  | acquire _ | acquireStop _ =>
    rw [pc] at here
    obtain ⟨idle,flight,rx,latest⟩ := here
    exact ⟨quiet.phase.trans idle,flight.quiet quiet,rx,latest.keep quiet.toKeeps (waited_of_idle idle)⟩
  | copy _ =>
    rw [pc] at here
    obtain ⟨idle,rx,latest⟩ := here
    exact ⟨quiet.phase.trans idle,rx,latest.keep quiet.toKeeps (waited_of_idle idle)⟩
  | release | sequence =>
    rw [pc] at here
    obtain ⟨idle,frame,rx,latest,written⟩ := here
    exact ⟨quiet.phase.trans idle,frame,rx,latest.keep quiet.toKeeps (waited_of_idle idle),written⟩
  | commit =>
    rw [pc] at here
    obtain ⟨waiting,round,unsent,last,frame,rx,latest,written⟩ := here
    have latest := latest.keep quiet.toKeeps (waited_of_sending waiting)
    dsimp only [ServerFact]
    rw [quiet.phase,quiet.sent,quiet.returned]
    exact ⟨waiting,round.keep quiet.sent quiet.grows,unsent,last,frame,rx,latest,written⟩
  | stamp =>
    rw [pc] at here
    obtain ⟨idle,round,last,frame,rx,latest,carried⟩ := here
    have latest := latest.keep quiet.toKeeps (waited_of_idle idle)
    dsimp only [ServerFact]
    rw [quiet.phase,quiet.sent,quiet.returned]
    exact ⟨idle,round.keep quiet.sent quiet.grows,last,frame,rx,latest,carried⟩
  | finish | returned =>
    rw [pc] at here
    exact quiet.phase.trans here

theorem serverAt_nextPoll (idle : port.nic.phase = .idle) (flight : InFlight p port v.txSeqInFlight v.rxInFlight) :
    ServerAt p (Server.nextPoll v) port := by
  unfold ServerAt Server.nextPoll
  dsimp only
  split
  · exact ⟨free_of_idle idle,flight⟩
  · exact ⟨idle,flight⟩

theorem ServerAt.next (enabled : setting.kHwTs = true) (here : ServerAt p v port) {call : Call} {reply : Reply}
    {after : Server.State} (called : Server.call setting v = some call)
    (plain : opOf call = none ∨ call = .release ∨ ∃ frameLen, call = .acquire frameLen)
    (moved : Server.next setting v reply = some after) : ServerAt p after (port.store call) := by
  unfold ServerAt at here
  unfold Server.call at called
  unfold Server.next at moved
  cases pc : v.pc <;> rw [pc] at here called moved
  case poll | pollStamp | sequence | commit | stamp =>
    cases Option.some.inj called
    rcases plain with plain | plain | ⟨_,plain⟩
    · cases plain
    · cases plain
    · cases plain
  case returned => cases called
  all_goals
    cases Option.some.inj called
    obtain ⟨_,_,rfl⟩ := Option.map_eq_some_iff.mp moved
  case push => exact serverAt_nextPoll here.1 here.2.1
  case releaseStop => exact here
  case copy =>
    obtain ⟨idle,rx,latest⟩ := here
    exact ⟨idle,_,rx,latest,rfl⟩
  case release =>
    rw [enabled,if_pos rfl]
    exact here
  case acquire =>
    unfold ServerAt
    dsimp only
    split
    · exact ⟨here.1,here.2.2⟩
    · exact here
  case acquireStop =>
    unfold ServerAt
    dsimp only
    split
    · exact ⟨here.1,here.2.1⟩
    · exact here
  case outerStop =>
    rw [enabled,if_pos rfl]
    split
    · exact here.1
    · exact ⟨free_of_idle here.1,here.2⟩
  case finish =>
    unfold ServerAt
    dsimp only
    split
    · exact here
    · exact here

section call

variable {enabled : setting.kHwTs = true} {call : Call} {rc : Rc} {reply : Option Reply} {t : System Server.State}

theorem ServerAt.poll (linked : Linked p port) (here : ServerAt p v port) (pc : v.pc = .poll)
    (next : nextOp port.nic.phase rc .tryReceive = some op) (ran : EfVi.exec p port.nic op = some (later,reply))
    (resumed : resume (Server.producer setting enabled) v (port.advance op later) reply = some t) :
    ServerAt p t.app t.port := by
  rw [ServerAt,pc] at here
  obtain ⟨waiting,flight⟩ := here
  obtain ⟨advanced,same,_,landings,result⟩ := receive_cases linked waiting next ran
  rw [advanced] at resumed
  rcases result with ⟨returned,through⟩ | ⟨frame,slot,rx,some,rfl,idle,returned,latest⟩
  · have flight := flight.grow same (returned ▸ List.prefix_rfl) landings
    rcases through with ⟨rfl,waiting⟩ | ⟨rfl,idle⟩
    · cases Option.some.inj resumed
      rw [ServerAt,pc]
      exact ⟨waiting,flight⟩
    · obtain ⟨_,moved,rfl⟩ := Option.map_eq_some_iff.mp resumed
      simp only [Server.producer,Server.next,pc,Reply.frame?,Option.map_some,if_true,enabled] at moved
      cases moved
      exact ⟨idle,flight⟩
  · have flight := flight.grow same (returned ▸ List.prefix_append _ _) landings
    obtain ⟨_,moved,rfl⟩ := Option.map_eq_some_iff.mp resumed
    simp only [Server.producer,Server.next,pc,Reply.frame?,Option.map_some,if_neg some] at moved
    cases moved
    exact ⟨idle,flight,rx,latest⟩

theorem InFlight.turnaround (flight : InFlight p port txSeq rx)
    (sent : port.nic.tx.sent.length = port.sentBefore + 1) (stamped : port.nic.tx.stamps[port.sentBefore]? = some tx) :
    Turnaround p port rx tx :=
  ⟨sent,stamped,flight.answered sent⟩

theorem ServerAt.pollStamp (hw : p.hwTimestamps = true) (linked : Linked p port) (fits : Fits p port)
    (here : ServerAt p v port) (pc : v.pc = .pollStamp)
    (ran : EfVi.exec p port.nic .pollTxTimestamp = some (later,reply))
    (resumed : resume (Server.producer setting enabled) v (port.advance .pollTxTimestamp later) reply = some t) :
    ServerAt p t.app t.port := by
  rw [ServerAt,pc] at here
  obtain ⟨idle,flight⟩ := here
  have quiet : Quiet p port.nic later := .call ran idle (by simp) (by simp)
  rw [Port.advance_unsent (by simp) quiet.sent] at resumed
  obtain ⟨_,same⟩ := Option.ite_none_right_eq_some.mp ran
  cases same
  have stillIdle := quiet.phase.trans idle
  have stillFlight := flight.quiet quiet
  obtain ⟨_,moved,rfl⟩ := Option.map_eq_some_iff.mp resumed
  simp only [Server.producer,Server.next,pc] at moved
  obtain ⟨stamp,read,rfl⟩ := Option.map_eq_some_iff.mp moved
  have polled := Reply.stamp?_eq_some read
  unfold Server.joinStamp
  cases stamp with
  | none => exact serverAt_nextPoll stillIdle stillFlight
  | some txTs =>
    dsimp only
    by_cases same : txTs.seq = v.txSeqInFlight
    · rw [if_neg (not_not.mpr same)]
      split
      · exact serverAt_nextPoll stillIdle stillFlight
      · obtain ⟨sent,stamped⟩ := flight.round.stamp linked hw fits polled same
        exact ⟨stillIdle,stillFlight,_,_,rfl,(flight.turnaround sent stamped).quiet quiet⟩
    · rw [if_pos same]
      exact serverAt_nextPoll stillIdle stillFlight

theorem ServerAt.sequence (linked : Linked p port) (here : ServerAt p v port) (pc : v.pc = .sequence)
    (ran : EfVi.exec p port.nic .txSequence = some (later,reply))
    (resumed : resume (Server.producer setting enabled) v (port.advance .txSequence later) reply = some t) :
    ServerAt p t.app t.port := by
  rw [ServerAt,pc] at here
  obtain ⟨idle,frame,rx,latest,written⟩ := here
  obtain ⟨_,same⟩ := Option.ite_none_right_eq_some.mp ran
  cases same
  obtain ⟨_,moved,rfl⟩ := Option.map_eq_some_iff.mp resumed
  simp only [Server.producer,Server.next,pc,Reply.word?,Option.map_some] at moved
  cases moved
  obtain ⟨_,_,sending⟩ := linked.ready.sending
  exact ⟨.inl idle,⟨sending.send.head,le_rfl,Nat.le_succ _,le_rfl⟩,rfl,rfl,frame,rx,latest,written⟩

theorem ServerAt.commit (linked : Linked p port) (here : ServerAt p v port) (pc : v.pc = .commit)
    (next : nextOp port.nic.phase rc .commit = some op) (ran : EfVi.exec p port.nic op = some (later,reply))
    (resumed : resume (Server.producer setting enabled) v (port.advance op later) reply = some t) :
    ServerAt p t.app t.port := by
  rw [ServerAt,pc] at here
  obtain ⟨waiting,round,unsent,last,frame,rx,latest,written⟩ := here
  obtain ⟨keeps,result⟩ := commit_cases waiting next ran
  have latest := latest.keep keeps (waited_of_sending waiting)
  have last : later.rx.returned.length = port.returnedBefore := by
    rw [keeps.returned]
    exact last
  have answered {port : Port} (fact : ServerFact p v port .stamp)
      (resumed : resume (Server.producer setting enabled) v port (some .done) = some t) : ServerAt p t.app t.port := by
    obtain ⟨_,moved,rfl⟩ := Option.map_eq_some_iff.mp resumed
    simp only [Server.producer,Server.next,pc,Reply.done?,Option.map_some,enabled,if_true] at moved
    cases moved
    exact fact
  rcases result with ⟨advanced,same,through⟩ | ⟨advanced,sent,rfl,idle⟩
  · rw [advanced] at resumed
    have round := round.keep same keeps.grows
    rcases through with ⟨rfl,waiting⟩ | ⟨rfl,idle⟩
    · cases Option.some.inj resumed
      rw [ServerAt,pc]
      refine ⟨waiting,round,?_,last,frame,rx,latest,written⟩
      dsimp only
      rw [same]
      exact unsent
    · apply answered _ resumed
      refine ⟨idle,round,last,frame,rx,latest,?_⟩
      dsimp only
      rw [same,unsent]
      intro impossible
      omega
  · rw [advanced] at resumed
    obtain ⟨round,carried⟩ := round.sent linked unsent sent keeps.grows
    apply answered _ resumed
    exact ⟨idle,round,last,frame,rx,latest,fun _ => carried.trans (congrArg some written)⟩

theorem ServerAt.stamp (hw : p.hwTimestamps = true) (linked : Linked p port) (here : ServerAt p v port)
    (pc : v.pc = .stamp) (ran : EfVi.exec p port.nic .hwRxTimestamp = some (later,reply))
    (resumed : resume (Server.producer setting enabled) v (port.advance .hwRxTimestamp later) reply = some t) :
    ServerAt p t.app t.port := by
  rw [ServerAt,pc] at here
  obtain ⟨idle,round,last,frame,rx,latest,carried⟩ := here
  obtain ⟨_,same⟩ := Option.ite_none_right_eq_some.mp ran
  cases same
  rw [Port.advance_unsent (by simp) rfl,latest.rxTimestamp linked.ready hw] at resumed
  obtain ⟨_,moved,rfl⟩ := Option.map_eq_some_iff.mp resumed
  simp only [Server.producer,Server.next,pc,Reply.word?,Option.map_some] at moved
  cases moved
  apply serverAt_nextPoll idle
  refine ⟨round,fun sent => ?_⟩
  exact ⟨_,frame,(Nat.sub_add_cancel latest.any).trans last,latest.received,carried sent⟩

theorem ServerAt.plain (here : ServerAt p v port) (idle : port.nic.phase = .idle)
    (called : Server.call setting v = some call) (plain : call = .release ∨ ∃ frameLen, call = .acquire frameLen)
    (next : nextOp port.nic.phase rc call = some op) (ran : EfVi.exec p port.nic op = some (later,reply))
    (resumed : resume (Server.producer setting enabled) v (port.advance op later) reply = some t) :
    ServerAt p t.app t.port := by
  obtain ⟨quiet,advanced,answer,rfl⟩ := plain_call idle plain next ran
  rw [advanced] at resumed
  obtain ⟨after,moved,rfl⟩ := Option.map_eq_some_iff.mp resumed
  exact (here.quiet quiet).next enabled called (.inr plain) moved

end call

theorem ServerAt.idle (here : ServerAt p v port) (other : v.pc ≠ .commit ∧ v.pc ≠ .poll) :
    port.nic.phase = .idle := by
  unfold ServerAt at here
  cases pc : v.pc <;> rw [pc] at here other
  case commit => exact absurd rfl other.1
  case poll => exact absurd rfl other.2
  case finish | returned => exact here
  all_goals exact here.1

theorem ServerAt.step {s t : System Server.State} (enabled : setting.kHwTs = true) (hw : p.hwTimestamps = true)
    (linked : Linked p s.port) (fits : Fits p s.port) (here : ServerAt p s.app s.port)
    (moves : Moves p (Server.producer setting enabled) s t) : ServerAt p t.app t.port := by
  cases moves with
  | card later op moved quiet => exact here.quiet quiet
  | answer call reply app called outside next => exact here.next enabled called (.inl outside) next
  | call call rc op later reply _ called next ran resumed =>
    have asks : Server.call setting s.app = some call := called
    unfold Server.call at asks
    cases pc : s.app.pc <;> rw [pc] at asks
    case returned => cases asks
    all_goals
      have same := Option.some.inj asks
      subst same
    case commit => exact here.commit linked pc next ran resumed
    case poll => exact here.poll linked pc next ran resumed
    all_goals
      have idle := here.idle (by rw [pc]; simp)
    case acquire => exact here.plain idle called (.inr ⟨_,rfl⟩) next ran resumed
    case release | releaseStop => exact here.plain idle called (.inl rfl) next ran resumed
    all_goals rw [idle] at next
    case pollStamp =>
      cases next
      exact here.pollStamp hw linked fits pc ran resumed
    case sequence =>
      cases next
      exact here.sequence linked pc ran resumed
    case stamp =>
      cases next
      exact here.stamp hw linked pc ran resumed
    all_goals cases next

private theorem server_run (enabled : setting.kHwTs = true) (duplex : p.mode = .RxTx) (hw : p.hwTimestamps = true)
    {events : List Event} {s : System Server.State}
    (fits : Along (step p (Server.producer setting enabled)) (fun s _ => Fits p s.port) (start p Server.start) events)
    (ran : run (step p (Server.producer setting enabled)) (start p Server.start) events = some s) :
    Linked p s.port ∧ ServerAt p s.app s.port := by
  apply run_invariant (fun s : System Server.State => Linked p s.port ∧ ServerAt p s.app s.port) _ _ fits ran
  · intro s event t ⟨linked,here⟩ fits moved
    have moves := step_moves moved
    exact ⟨linked.step moves,here.step enabled hw linked fits moves⟩
  · exact ⟨⟨.start duplex,rfl⟩,EfVi.Phase.noConfusion,⟨rfl,le_rfl,Nat.zero_le _,le_rfl⟩,fun sent => nomatch sent⟩

end server

/-- `hwRxTimestamp` reads the stamp of the last frame returned; with the X2522Plus tuning
out of its slot, which the card does not have yet. -/
def Readable (p : Params) (nic : EfVi.State) : Prop :=
  (∃ n frame, n + 1 = nic.rx.returned.length ∧ Received p nic n frame (EfVi.hwRxTimestamp p nic)) ∧
    (p.tuning = .X2522Plus → nic.rx.heldId ∉ nic.rx.inited ++ nic.rx.posted)

private theorem readable_of_latest {frame : List Byte} (latest : Latest p port.nic frame rx) (linked : Linked p port)
    (hw : p.hwTimestamps = true) : Readable p port.nic := by
  refine ⟨⟨_,frame,Nat.sub_add_cancel latest.any,?_⟩,fun plus => ?_⟩
  · rw [latest.rxTimestamp linked.ready hw]
    exact latest.received
  · apply latest.not_reposted linked.ready
    rw [Params.kX2522Plus,plus]
    rfl

/-- The pairs a loop makes out of `rx` and the stamps it polls are pairs of one exchange:
those it offers to the recorder, and those it drops while it warms up. -/
structure Paired {σ : Type} (p : Params) (P : Producer σ) (s : System σ) (txSeq rx : BitVec 32)
    (Exchange : BitVec 32 → BitVec 32 → Prop) : Prop where
  recorded : ∀ sample, P.phase s.app = .sampling → P.call s.app = some (.tryPush sample) →
    ∃ rx tx : BitVec 32, sample = (rx.setWidth 64 <<< 32) ||| tx.setWidth 64 ∧ Exchange rx tx
  measured : Fits p s.port → P.call s.app = some .pollTxTimestamp →
    ∀ stamp, (EfVi.pollTxTimestamp p s.port.nic).2 = .stamp (some stamp) → stamp.seq = txSeq →
      Exchange rx stamp.minor
  readable : P.call s.app = some .hwRxTimestamp → Readable p s.port.nic

theorem ClientAt.paired {setting : Client.Setting} {s : System Client.State} (hw : p.hwTimestamps = true)
    (linked : Linked p s.port) (here : ClientAt p setting s.app s.port) :
    Paired p (Client.producer setting) s s.app.txSeq (EfVi.hwRxTimestamp p s.port.nic)
      (RoundTrip p setting s.app s.port) := by
  have calls {call : Call} (called : (Client.producer setting).call s.app = some call) :
      Client.call setting s.app = some call := called
  unfold ClientAt at here
  refine ⟨?_,?_,?_⟩
  · intro sample sampling called
    obtain ⟨pair,held,rfl⟩ := (Client.producer setting).offers s.app sample sampling called
    have pc : s.app.pc = .push pair := by
      change Client.stamps s.app = some pair at held
      unfold Client.stamps at held
      split at held
      next pc => rw [pc,Option.some.inj held]
      · cases held
    rw [pc] at here
    obtain ⟨_,rx,tx,rfl,trip⟩ := here
    exact ⟨rx,tx,rfl,trip⟩
  · intro fits called stamp polled same
    have pc : s.app.pc = .pollStamp := by
      have called := calls called
      unfold Client.call at called
      split at called <;> first | assumption | cases called
    rw [pc] at here
    obtain ⟨_,asked,rx,echoed⟩ := here
    obtain ⟨sent,stamped⟩ := asked.round.stamp linked hw fits polled same
    have trip := echoed.roundTrip asked sent stamped
    obtain ⟨_,_,latest,_⟩ := echoed
    rwa [latest.rxTimestamp linked.ready hw]
  · intro called
    have pc : ∃ minor, s.app.pc = .rxStamp minor := by
      have called := calls called
      unfold Client.call at called
      split at called
      all_goals first | exact ⟨_,by assumption⟩ | cases called
    obtain ⟨minor,pc⟩ := pc
    rw [pc] at here
    obtain ⟨_,rx,⟨_,_,latest,_⟩,_⟩ := here
    exact readable_of_latest latest linked hw

theorem ServerAt.paired {setting : Server.Setting} (enabled : setting.kHwTs = true) {s : System Server.State}
    (hw : p.hwTimestamps = true) (linked : Linked p s.port) (here : ServerAt p s.app s.port) :
    Paired p (Server.producer setting enabled) s s.app.txSeqInFlight s.app.rxInFlight (Turnaround p s.port) := by
  have calls {call : Call} (called : (Server.producer setting enabled).call s.app = some call) :
      Server.call setting s.app = some call := called
  unfold ServerAt at here
  refine ⟨?_,?_,?_⟩
  · intro sample sampling called
    obtain ⟨pair,held,rfl⟩ := (Server.producer setting enabled).offers s.app sample sampling called
    have pc : s.app.pc = .push pair := by
      change Server.stamps s.app = some pair at held
      unfold Server.stamps at held
      split at held
      next pc => rw [pc,Option.some.inj held]
      · cases held
    rw [pc] at here
    obtain ⟨_,_,rx,tx,rfl,turn⟩ := here
    exact ⟨rx,tx,rfl,turn⟩
  · intro fits called stamp polled same
    have pc : s.app.pc = .pollStamp := by
      have called := calls called
      unfold Server.call at called
      split at called <;> first | assumption | cases called
    rw [pc] at here
    obtain ⟨_,flight⟩ := here
    obtain ⟨sent,stamped⟩ := flight.round.stamp linked hw fits polled same
    exact flight.turnaround sent stamped
  · intro called
    have pc : s.app.pc = .stamp := by
      have called := calls called
      unfold Server.call at called
      split at called <;> first | assumption | cases called
    rw [pc] at here
    obtain ⟨_,_,_,frame,rx,latest,_⟩ := here
    exact readable_of_latest latest linked hw

/-- Every hardware sample is made of the two stamps of one exchange. In every run of
`run_client` the pair is of the frame sent in the round and of its echo; in every run of
`run_server` it is of a request and of its own reply. -/
theorem hardware_samples_of_one_exchange (duplex : p.mode = .RxTx) (hw : p.hwTimestamps = true) :
    (∀ (setting : Client.Setting) (now : BitVec 64) (clock : Timespec) (c : Client.State) (events : List Event)
        (s : System Client.State), setting.kHwTs = true → Client.start setting now clock = some c →
      Along (step p (Client.producer setting)) (fun s _ => Fits p s.port) (start p c) events →
      run (step p (Client.producer setting)) (start p c) events = some s →
      Paired p (Client.producer setting) s s.app.txSeq (EfVi.hwRxTimestamp p s.port.nic)
        (RoundTrip p setting s.app s.port)) ∧
    ∀ (setting : Server.Setting) (enabled : setting.kHwTs = true) (events : List Event) (s : System Server.State),
      Along (step p (Server.producer setting enabled)) (fun s _ => Fits p s.port) (start p Server.start) events →
      run (step p (Server.producer setting enabled)) (start p Server.start) events = some s →
      Paired p (Server.producer setting enabled) s s.app.txSeqInFlight s.app.rxInFlight (Turnaround p s.port) := by
  constructor
  · intro setting now clock c events s enabled started fits ran
    obtain ⟨linked,here⟩ := client_run enabled duplex hw started fits ran
    exact here.paired hw linked
  · intro setting enabled events s fits ran
    obtain ⟨linked,here⟩ := server_run enabled duplex hw fits ran
    exact here.paired enabled hw linked

def labConfig : TestConfig where
  etherType := 0x88B5
  frameSize := 64
  sendIntervalUs := 0
  recQueueCapacity := 4
  clientMac := ⟨[2,0,0,0,0,1],rfl⟩
  serverMac := ⟨[2,0,0,0,0,2],rfl⟩

def labClient : Client.Setting := ⟨labConfig,true,1000,100⟩

def labServer : Server.Setting := ⟨labConfig,true⟩

def labPrefix (stamp : Byte) : List Byte := List.replicate 10 0 ++ [stamp,0,0,0]

/-- One round: the send retried once, an echo of another round dropped, the stamp of the send
drained by an empty poll, and the echo of this round. -/
def labRound : List Event :=
  [.answer (.time 0),.answer (.flag false),.call .ok,.answer .done,.call .ok,.call .ok,.call .again,.call .ok,
    .land (labPrefix 6 ++ Client.echo labClient 9),.call .ok,.call .ok,.call .ok,
    .report (.txWithTimestamp 0 5 0 true),.call .ok,.call .ok,.call .ok,
    .land (labPrefix 7 ++ Client.echo labClient 0),.call .ok,.call .ok,.call .ok]

def labRequest : List Event :=
  [.land (labPrefix 7 ++ Client.echo labClient 3),.call .ok,.call .ok,.call .ok,.answer .done,.call .ok,.call .ok,
    .call .ok,.call .ok,.report (.txWithTimestamp 0 5 0 true)] ++ List.replicate 10 (.call .ok)

theorem hardware_samples_of_one_exchange_lab :
    (∃ c s, Client.start labClient 0 ⟨0,0⟩ = some c ∧
      run (step (EfVi.labPort .Generic) (Client.producer labClient)) (start (EfVi.labPort .Generic) c) labRound = some s ∧
      RoundTrip (EfVi.labPort .Generic) labClient s.app s.port 7 20) ∧
    ∃ s, run (step (EfVi.labPort .X2522Plus) (Server.producer labServer rfl))
        (start (EfVi.labPort .X2522Plus) Server.start) labRequest = some s ∧
      Turnaround (EfVi.labPort .X2522Plus) s.port 7 20 := by
  constructor
  · obtain ⟨c,started⟩ : ∃ c, Client.start labClient 0 ⟨0,0⟩ = some c := ⟨_,rfl⟩
    have fits : Along (step (EfVi.labPort .Generic) (Client.producer labClient))
        (fun s _ => Fits (EfVi.labPort .Generic) s.port)
        (start (EfVi.labPort .Generic) c) labRound := by
      cases started
      decide +kernel
    have shown : (run (step (EfVi.labPort .Generic) (Client.producer labClient)) (start (EfVi.labPort .Generic) c)
        labRound).map
        (fun s => (Client.call labClient s.app,(EfVi.pollTxTimestamp (EfVi.labPort .Generic) s.port.nic).2,
          s.app.txSeq,EfVi.hwRxTimestamp (EfVi.labPort .Generic) s.port.nic)) =
        some (some .pollTxTimestamp,.stamp (some ⟨0,20⟩),0,7) := by
      cases started
      decide +kernel
    obtain ⟨s,ran,parts⟩ := Option.map_eq_some_iff.mp shown
    simp only [Prod.mk.injEq] at parts
    obtain ⟨called,polled,seq,rx⟩ := parts
    have paired := (hardware_samples_of_one_exchange rfl rfl).1 labClient 0 ⟨0,0⟩ c labRound s rfl started fits ran
    have trip := paired.measured (fun plus => nomatch plus) called ⟨0,20⟩ polled seq.symm
    rw [rx] at trip
    exact ⟨c,s,started,ran,trip⟩
  · have fits : Along (step (EfVi.labPort .X2522Plus) (Server.producer labServer rfl))
        (fun s _ => Fits (EfVi.labPort .X2522Plus) s.port) (start (EfVi.labPort .X2522Plus) Server.start) labRequest := by
      decide +kernel
    have shown : (run (step (EfVi.labPort .X2522Plus) (Server.producer labServer rfl))
        (start (EfVi.labPort .X2522Plus) Server.start) labRequest).map
        (fun s => (Server.call labServer s.app,(EfVi.pollTxTimestamp (EfVi.labPort .X2522Plus) s.port.nic).2,
          s.app.txSeqInFlight,s.app.rxInFlight,(EfVi.outstanding s.port.nic).length)) =
        some (some .pollTxTimestamp,.stamp (some ⟨0,20⟩),0,7,0) := by decide +kernel
    obtain ⟨s,ran,parts⟩ := Option.map_eq_some_iff.mp shown
    simp only [Prod.mk.injEq] at parts
    obtain ⟨called,polled,seq,rx,count⟩ := parts
    have paired := (hardware_samples_of_one_exchange rfl rfl).2 labServer rfl labRequest s fits ran
    have turn := paired.measured (fun _ => by rw [count]; decide) called ⟨0,20⟩ polled seq.symm
    rw [rx] at turn
    exact ⟨s,ran,turn⟩

end Abtrda3.HardwareSamples
