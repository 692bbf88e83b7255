import Abtrda3.EfViAccount
import Abtrda3.HardwareSamples
import Abtrda3.TxGenerator

/-! The loops that drive the X2522Plus interface. They work completions off only where a
poll comes up empty: the generator nowhere, the server between two bursts of requests, the
client when an echo lets it wait. For each of them the bounds of the card follow from how
many frames come between two empty polls, which completions are reported by then, and how
many frames are sent in all. -/
namespace Abtrda3.EfViCallers
open Abtrda3.Application Abtrda3.Semantics Abtrda3.Semantics.Machine Abtrda3.HardwareSystem Abtrda3.EfViAccount
open Abtrda3.EfVi (Params outstanding)

inductive Loop
  | client (p : Client.Setting)
  | server (p : Server.Setting) (hw : p.kHwTs = true)
  | txgen (p : TxGenerator.Setting)

namespace Loop

def State : Loop → Type
  | .client _ => Client.State
  | .server _ _ => Server.State
  | .txgen _ => TxGenerator.State

def producer : (loop : Loop) → Producer loop.State
  | .client p => Client.producer p
  | .server p hw => Server.producer p hw
  | .txgen p => TxGenerator.producer p

def Starts : (loop : Loop) → loop.State → Prop
  | .client p, app => ∃ now clock, Client.start p now clock = some app
  | .server _ _, app => app = Server.start
  | .txgen _, app => ∃ clock, app = TxGenerator.start clock

def Wired (p : Params) : Loop → Prop
  | .client _ | .server _ _ => p.mode = .RxTx
  | .txgen _ => True

end Loop

/-- No frame is sent after the `txq`-th. -/
def Few (p : Params) (setting : TxGenerator.Setting) (txq : Nat) (s : System TxGenerator.State) (event : Event) : Prop :=
  commits p (TxGenerator.producer setting) s event = true → s.app.i.toNat < txq

instance decidableFew (p : Params) (setting : TxGenerator.Setting) (txq : Nat) (s : System TxGenerator.State)
    (event : Event) :
    Decidable (Few p setting txq s event) :=
  inferInstanceAs (Decidable (_ → _))

namespace Loop

/-- The frames begun when a slot is acquired: rounds of the client, requests the server
received, frames of the generator. -/
def begun : (loop : Loop) → System loop.State → Nat
  | .client _ => fun (s : System Client.State) => s.app.sent + 1
  | .server _ _ => fun (s : System Server.State) => s.port.nic.rx.returned.length
  | .txgen _ => fun (s : System TxGenerator.State) => s.app.i.toNat + 1

/-- What keeps the descriptor queue from overflowing: where the loop polls, bursts that
fit and completions by then; the generator polls nowhere and must send few frames. -/
def Paced (p : Params) (burst txq : Nat) : (loop : Loop) → System loop.State → Event → Prop
  | .client setting => Drained p (Client.producer setting) 1 burst txq
  | .server setting hw => Drained p (Server.producer setting hw) 0 burst txq
  | .txgen setting => Few p setting txq

instance decidablePaced (p : Params) (burst txq : Nat) :
    (loop : Loop) → (s : System loop.State) → (event : Event) → Decidable (loop.Paced p burst txq s event)
  | .client setting, s, event => decidableDrained p (Client.producer setting) 1 burst txq s event
  | .server setting hw, s, event => decidableDrained p (Server.producer setting hw) 0 burst txq s event
  | .txgen setting, s, event => decidableFew p setting txq s event

end Loop

variable {p : Params}

section txgen

variable {setting : TxGenerator.Setting} {v w : TxGenerator.State} {reply : Reply}

def running : TxGenerator.Pc → Bool
  | .startTime | .endTime | .returned => false
  | _ => true

private theorem running_enter (v : TxGenerator.State) (going : running (TxGenerator.enter setting v).pc = true) :
    v.i < setting.count := by
  by_contra past
  rw [TxGenerator.enter,if_neg past] at going
  cases going

private theorem txgen_answer {call : Call} (called : TxGenerator.call setting v = some call) (other : call ≠ .commit)
    (granted : ∀ frameLen, call = .acquire frameLen → reply = .flag true)
    (next : TxGenerator.next setting v reply = some w) (below : running v.pc = true → v.i < setting.count) :
    w.i = v.i ∧ (running w.pc = true → w.i < setting.count) := by
  unfold TxGenerator.call at called
  unfold TxGenerator.next at next
  cases pc : v.pc <;> rw [pc] at called next below
  case commit => exact absurd (Option.some.inj called).symm other
  case returned => cases called
  all_goals
    obtain ⟨value,read,rfl⟩ := Option.map_eq_some_iff.mp next
  case startTime => exact ⟨rfl,running_enter _⟩
  case endTime => exact ⟨rfl,fun going => nomatch going⟩
  case acquire =>
    rw [granted _ (Option.some.inj called).symm] at read
    cases Option.some.inj read
    exact ⟨rfl,fun _ => below rfl⟩
  case stopCheck =>
    split_ifs
    · exact ⟨rfl,fun going => nomatch going⟩
    · exact ⟨rfl,fun _ => below rfl⟩
    · exact ⟨rfl,fun _ => below rfl⟩
  all_goals exact ⟨rfl,fun _ => below rfl⟩

private theorem txgen_commit (called : TxGenerator.call setting v = some .commit)
    (next : TxGenerator.next setting v .done = some w) (below : running v.pc = true → v.i < setting.count) :
    w.i.toNat = v.i.toNat + 1 ∧ (running w.pc = true → w.i < setting.count) := by
  unfold TxGenerator.call at called
  unfold TxGenerator.next at next
  cases pc : v.pc <;> rw [pc] at called next below
  case commit =>
    cases Option.some.inj next
    refine ⟨?_,running_enter _⟩
    have less : v.i < setting.count := below rfl
    change (v.i + 1).toNat = _
    bv_omega
  all_goals cases called

private theorem txgen_calls_no_receive (setting : TxGenerator.Setting) (v : TxGenerator.State) :
    TxGenerator.call setting v ≠ some .tryReceive := by
  unfold TxGenerator.call
  cases v.pc <;> exact fun same => nomatch same

/-- The generator receives nothing and so works off none of its sends. -/
structure Generating (p : Params) (setting : TxGenerator.Setting) (s : System TxGenerator.State) : Prop where
  poised : Poised p (TxGenerator.producer setting) s
  counted : (account s.port.nic).sent = s.app.i.toNat
  undrained : (account s.port.nic).waiting = (account s.port.nic).sent
  below : running s.app.pc = true → s.app.i < setting.count

theorem Generating.start (p : Params) (setting : TxGenerator.Setting) (clock : Timespec) :
    Generating p setting (HardwareSystem.start p (TxGenerator.start clock)) :=
  ⟨.start p _ _,rfl,rfl,fun going => nomatch going⟩

theorem Generating.step {s t : System TxGenerator.State} {event : Event} (plus : p.tuning = .X2522Plus)
    (inv : Generating p setting s) (moved : step p (TxGenerator.producer setting) s event = some t) :
    Generating p setting t := by
  obtain ⟨poised,turn⟩ := inv.poised.turn plus moved
  cases turn with
  | wait app same =>
    exact ⟨poised,by rw [same,app]; exact inv.counted,by rw [same]; exact inv.undrained,by rw [app]; exact inv.below⟩
  | answer call reply called other granted next same =>
    obtain ⟨turn,below⟩ := txgen_answer called other.1 (fun frameLen same => (granted frameLen same).1) next inv.below
    exact ⟨poised,by rw [same,turn]; exact inv.counted,by rw [same]; exact inv.undrained,below⟩
  | send called _ next more =>
    obtain ⟨turn,below⟩ := txgen_commit called next inv.below
    refine ⟨poised,?_,?_,below⟩
    · rw [more,turn]
      exact congrArg (· + 1) inv.counted
    · rw [more]
      exact congrArg (· + 1) inv.undrained
  | hit _ _ called | empty called => exact absurd called (txgen_calls_no_receive setting s.app)

theorem Generating.below_of_commits {s : System TxGenerator.State} {event : Event} (inv : Generating p setting s)
    (committed : commits p (TxGenerator.producer setting) s event = true) : s.app.i < setting.count := by
  have called : TxGenerator.call setting s.app = some .commit := call_of_commits committed
  apply inv.below
  unfold TxGenerator.call at called
  cases pc : s.app.pc <;> rw [pc] at called
  case commit => rfl
  all_goals cases called

end txgen

section server

variable {setting : Server.Setting} {v w : Server.State} {reply : Reply}

def owed : Server.Pc → Nat
  | .acquire _ | .copy _ | .release | .sequence | .commit => 1
  | _ => 0

def replying : Server.Pc → Bool
  | .copy _ | .release | .sequence | .commit => true
  | _ => false

def refused : Server.Pc → Bool
  | .acquireStop _ | .releaseStop => true
  | _ => false

private theorem nextPoll_rest (v : Server.State) :
    refused (Server.nextPoll v).pc = false ∧ owed (Server.nextPoll v).pc = 0 ∧ replying (Server.nextPoll v).pc = false := by
  unfold Server.nextPoll
  dsimp only
  split
  · exact ⟨rfl,rfl,rfl⟩
  · exact ⟨rfl,rfl,rfl⟩

private theorem server_answer {call : Call} (hw : setting.kHwTs = true) (called : Server.call setting v = some call)
    (other : call ≠ .commit ∧ call ≠ .tryReceive)
    (granted : ∀ frameLen, call = .acquire frameLen → reply = .flag true)
    (next : Server.next setting v reply = some w) (kept : refused v.pc = false) :
    refused w.pc = false ∧ owed w.pc = owed v.pc ∧
      (replying w.pc = true → replying v.pc = true ∨ ∃ frameLen, call = .acquire frameLen) := by
  have rest (after : Server.State) (none : owed v.pc = 0) : refused (Server.nextPoll after).pc = false ∧
      owed (Server.nextPoll after).pc = owed v.pc ∧
      (replying (Server.nextPoll after).pc = true → replying v.pc = true ∨ ∃ frameLen, call = .acquire frameLen) := by
    obtain ⟨kept,nothing,idle⟩ := nextPoll_rest after
    refine ⟨kept,nothing.trans none.symm,fun busy => ?_⟩
    rw [idle] at busy
    cases busy
  unfold Server.call at called
  unfold Server.next at next
  cases pc : v.pc <;> rw [pc] at called next kept rest
  case commit => exact absurd (Option.some.inj called).symm other.1
  case poll => exact absurd (Option.some.inj called).symm other.2
  case acquireStop | releaseStop => cases kept
  case returned => cases called
  all_goals
    obtain ⟨value,read,rfl⟩ := Option.map_eq_some_iff.mp next
  case pollStamp =>
    unfold Server.joinStamp
    cases value with
    | none => exact rest v rfl
    | some txTs =>
      dsimp only
      split_ifs
      · exact rest v rfl
      · exact rest _ rfl
      · exact ⟨rfl,rfl,fun busy => nomatch busy⟩
  case push | stamp => exact rest _ rfl
  case acquire =>
    rw [granted _ (Option.some.inj called).symm] at read
    cases Option.some.inj read
    exact ⟨rfl,rfl,fun _ => .inr ⟨_,(Option.some.inj called).symm⟩⟩
  case copy | sequence => exact ⟨rfl,rfl,fun _ => .inl rfl⟩
  case release =>
    rw [if_pos hw]
    exact ⟨rfl,rfl,fun _ => .inl rfl⟩
  case outerStop =>
    rw [if_pos hw]
    split_ifs
    · exact ⟨rfl,rfl,fun busy => nomatch busy⟩
    · exact ⟨rfl,rfl,fun busy => nomatch busy⟩
  case finish =>
    cases value
    · exact ⟨rfl,rfl,fun busy => nomatch busy⟩
    · exact ⟨rfl,rfl,fun busy => nomatch busy⟩

private theorem server_commit (called : Server.call setting v = some .commit) : v.pc = .commit := by
  unfold Server.call at called
  cases pc : v.pc <;> rw [pc] at called
  all_goals cases called

private theorem server_sent (hw : setting.kHwTs = true) (here : v.pc = .commit)
    (next : Server.next setting v .done = some w) : w.pc = .stamp := by
  simp only [Server.next,here,Reply.done?,Option.map_some,hw,if_true,Option.some_inj] at next
  rw [← next]

private theorem server_acquire {frameLen : BitVec 32} (called : Server.call setting v = some (.acquire frameLen)) :
    owed v.pc = 1 := by
  unfold Server.call at called
  cases pc : v.pc <;> rw [pc] at called
  case acquire => rfl
  all_goals cases called

private theorem server_receive (hw : setting.kHwTs = true) (called : Server.call setting v = some .tryReceive)
    {frame : List Byte}
    (next : Server.next setting v (.frame frame) = some w) :
    v.pc = .poll ∧ w.pc = if frame = [] then .pollStamp else .acquire frame := by
  unfold Server.call at called
  unfold Server.next at next
  cases pc : v.pc <;> rw [pc] at called next
  case poll =>
    simp only [Reply.frame?,Option.map_some,hw,if_true,Option.some_inj] at next
    subst next
    refine ⟨rfl,?_⟩
    split_ifs
    · rfl
    · rfl
  all_goals cases called

/-- Every request but the one in hand is answered, and what an empty poll left plus the
requests since fits the queue. -/
structure Serving (p : Params) (setting : Server.Setting) (hw : setting.kHwTs = true) (burst txq : Nat)
    (s : System Server.State) : Prop where
  poised : Poised p (Server.producer setting hw) s
  kept : refused s.app.pc = false
  answered : (account s.port.nic).returned = (account s.port.nic).sent + owed s.app.pc
  credit : (account s.port.nic).waiting + (account s.port.nic).reposted + burst ≤ txq + (account s.port.nic).sent
  room : (account s.port.nic).waiting ≤ txq
  paced : replying s.app.pc = true → (account s.port.nic).returned ≤ (account s.port.nic).reposted + burst

theorem Serving.start {burst txq : Nat} (hw : setting.kHwTs = true) (room : burst ≤ txq) :
    Serving p setting hw burst txq (HardwareSystem.start p Server.start) := by
  refine ⟨.start p _ _,rfl,rfl,?_,Nat.zero_le txq,fun busy => nomatch busy⟩
  change 0 + 0 + burst ≤ txq + 0
  omega

theorem Serving.step {s t : System Server.State} {event : Event} {hw : setting.kHwTs = true} {burst txq : Nat}
    (plus : p.tuning = .X2522Plus) (receives : p.hasRx = true) (inv : Serving p setting hw burst txq s)
    (drained : Drained p (Server.producer setting hw) 0 burst txq s event)
    (moved : step p (Server.producer setting hw) s event = some t) : Serving p setting hw burst txq t := by
  obtain ⟨poised,turn⟩ := inv.poised.turn plus moved
  have answered := inv.answered
  have credit := inv.credit
  have room := inv.room
  cases turn with
  | wait app same =>
    exact ⟨poised,by rw [app]; exact inv.kept,by rw [same,app]; exact answered,by rw [same]; exact credit,
      by rw [same]; exact room,by rw [same,app]; exact inv.paced⟩
  | answer call reply called other granted next same =>
    obtain ⟨kept,owes,busy⟩ :=
      server_answer hw called other (fun frameLen same => (granted frameLen same).1) next inv.kept
    refine ⟨poised,kept,by rw [same,owes]; exact answered,by rw [same]; exact credit,by rw [same]; exact room,?_⟩
    intro replying
    rw [same]
    rcases busy replying with before | ⟨frameLen,acquire⟩
    · exact inv.paced before
    · exact inv.poised.paced receives drained (granted frameLen acquire).2
  | send called _ next more =>
    have here := server_commit called
    have there := server_sent hw here next
    have paced := inv.paced (by rw [here]; rfl)
    rw [here] at answered
    simp only [owed] at answered
    refine ⟨poised,by rw [there]; rfl,?_,?_,?_,by rw [there]; exact fun busy => nomatch busy⟩
    · rw [more,there]
      exact answered
    · rw [more]
      dsimp only
      omega
    · rw [more]
      dsimp only
      omega
  | hit frame full called next more =>
    obtain ⟨here,there⟩ := server_receive hw called next
    rw [if_neg full] at there
    rw [here] at answered
    refine ⟨poised,by rw [there]; rfl,?_,by rw [more]; exact credit,by rw [more]; exact room,
      by rw [there]; exact fun busy => nomatch busy⟩
    rw [more,there]
    exact congrArg (· + 1) answered
  | empty called polled next less =>
    obtain ⟨here,there⟩ := server_receive hw called next
    have fits := drained.2 polled
    rw [here] at answered
    simp only [owed,Nat.add_zero] at answered
    refine ⟨poised,by rw [there]; rfl,by rw [less,there]; exact answered,?_,?_,
      by rw [there]; exact fun busy => nomatch busy⟩
    · rw [less]
      dsimp only
      omega
    · rw [less]
      dsimp only
      omega

theorem Serving.disciplined_iff {s : System Server.State} {event : Event} {hw : setting.kHwTs = true} {burst txq : Nat}
    (plus : p.tuning = .X2522Plus) (inv : Serving p setting hw burst txq s) :
    Disciplined p (Server.producer setting hw) txq s event ↔
      Completed p (Server.producer setting hw) (fun s => s.port.nic.rx.returned.length) s event := by
  have answered := inv.answered
  have credit := inv.credit
  apply disciplined_iff_completed plus inv.poised inv.room
  · intro acquired
    obtain ⟨frameLen,called⟩ := call_of_acquires acquired
    rw [server_acquire called] at answered
    exact answered
  · intro committed
    have here := server_commit (call_of_commits committed)
    have paced := inv.paced (by rw [here]; rfl)
    rw [here] at answered
    simp only [owed] at answered
    omega

end server

section client

variable {setting : Client.Setting} {v w : Client.State} {reply : Reply}

def storing : Client.Pc → Bool
  | .storeSeq | .sendStamp | .sequence | .commit => true
  | _ => false

private theorem spin_still (v : Client.State) : storing (Client.spin v).pc = false ∧ (Client.spin v).sent = v.sent := by
  unfold Client.spin
  dsimp only
  split
  · exact ⟨rfl,rfl⟩
  · exact ⟨rfl,rfl⟩

private theorem client_answer {call : Call} (called : Client.call setting v = some call)
    (other : call ≠ .commit ∧ call ≠ .tryReceive) (next : Client.next setting v reply = some w) :
    v.pc ≠ .receive ∧ w.sent = v.sent ∧
      (storing w.pc = true → storing v.pc = true ∨ ∃ frameLen, call = .acquire frameLen) := by
  unfold Client.call at called
  unfold Client.next at next
  cases pc : v.pc <;> rw [pc] at called next
  case commit => exact absurd (Option.some.inj called).symm other.1
  case receive => exact absurd (Option.some.inj called).symm other.2
  case returned => cases called
  all_goals
    refine ⟨Client.Pc.noConfusion,?_⟩
    obtain ⟨value,read,rfl⟩ := Option.map_eq_some_iff.mp next
  case acquire => exact ⟨rfl,fun _ => .inr ⟨_,(Option.some.inj called).symm⟩⟩
  case storeSeq | sendStamp | sequence => exact ⟨rfl,fun _ => .inl rfl⟩
  case releaseOther =>
    obtain ⟨still,same⟩ := spin_still v
    refine ⟨same,fun busy => ?_⟩
    rw [still] at busy
    cases busy
  case pollStamp =>
    unfold Client.joinStamp
    cases value <;> dsimp only <;> split_ifs <;> exact ⟨rfl,fun busy => nomatch busy⟩
  case releaseEcho =>
    unfold Client.recordCycles
    split_ifs <;> exact ⟨rfl,fun busy => nomatch busy⟩
  case pace | rxStamp | push => exact ⟨rfl,fun busy => nomatch busy⟩
  case arrival =>
    unfold Client.classify
    dsimp only
    split <;> exact ⟨rfl,fun busy => nomatch busy⟩
  case stopCheck | spinStop | spinTime =>
    split_ifs <;> exact ⟨rfl,fun busy => nomatch busy⟩
  case top | finish =>
    dsimp only
    split_ifs <;> exact ⟨rfl,fun busy => nomatch busy⟩

private theorem client_commit (called : Client.call setting v = some .commit) : v.pc = .commit := by
  unfold Client.call at called
  cases pc : v.pc <;> rw [pc] at called
  all_goals cases called

private theorem client_sent (here : v.pc = .commit) (next : Client.next setting v .done = some w) :
    w.pc = .receive ∧ w.sent = v.sent + 1 := by
  simp only [Client.next,here,Reply.done?,Option.map_some,Option.some_inj] at next
  subst next
  exact ⟨rfl,rfl⟩

private theorem client_receive (called : Client.call setting v = some .tryReceive) : v.pc = .receive := by
  unfold Client.call at called
  cases pc : v.pc <;> rw [pc] at called
  all_goals cases called

private theorem client_received (here : v.pc = .receive) {frame : List Byte}
    (next : Client.next setting v (.frame frame) = some w) :
    w.sent = v.sent ∧ storing w.pc = false ∧ (frame ≠ [] → w.pc ≠ .receive) := by
  simp only [Client.next,here,Reply.frame?,Option.map_some,Option.some_inj] at next
  subst next
  split_ifs with empty hw
  · obtain ⟨still,same⟩ := spin_still v
    exact ⟨same,still,fun full => absurd empty full⟩
  · unfold Client.classify
    dsimp only
    split
    · exact ⟨rfl,rfl,fun _ => Client.Pc.noConfusion⟩
    · exact ⟨rfl,rfl,fun _ => Client.Pc.noConfusion⟩
  · exact ⟨rfl,rfl,fun _ => Client.Pc.noConfusion⟩

/-- One round is ahead of the frames received only while the client waits for its first
frame; a round given up has seen a poll come up empty. -/
structure Asking (p : Params) (setting : Client.Setting) (burst txq : Nat) (s : System Client.State) : Prop where
  poised : Poised p (Client.producer setting) s
  counted : (account s.port.nic).sent = s.app.sent
  credit : (account s.port.nic).waiting + (account s.port.nic).reposted + burst ≤
    txq + (account s.port.nic).returned + if s.app.pc = .receive then 1 else 0
  room : (account s.port.nic).waiting ≤ txq
  paced : storing s.app.pc = true → (account s.port.nic).returned + 1 ≤ (account s.port.nic).reposted + burst

theorem Asking.start {burst txq : Nat} (room : burst ≤ txq) {now : BitVec 64} {clock : Timespec} {app : Client.State}
    (begun : Client.start setting now clock = some app) :
    Asking p setting burst txq (HardwareSystem.start p app) := by
  obtain ⟨_,same⟩ := Option.ite_none_left_eq_some.mp begun
  cases same
  refine ⟨.start p _ _,rfl,?_,Nat.zero_le txq,fun busy => nomatch busy⟩
  change 0 + 0 + burst ≤ txq + 0 + 0
  omega

theorem Asking.step {s t : System Client.State} {event : Event} {burst txq : Nat} (plus : p.tuning = .X2522Plus)
    (receives : p.hasRx = true) (inv : Asking p setting burst txq s)
    (drained : Drained p (Client.producer setting) 1 burst txq s event)
    (moved : step p (Client.producer setting) s event = some t) : Asking p setting burst txq t := by
  obtain ⟨poised,turn⟩ := inv.poised.turn plus moved
  have credit := inv.credit
  have room := inv.room
  cases turn with
  | wait app same =>
    exact ⟨poised,by rw [same,app]; exact inv.counted,by rw [same,app]; exact credit,by rw [same]; exact room,
      by rw [same,app]; exact inv.paced⟩
  | answer call reply called other granted next same =>
    obtain ⟨elsewhere,sent,busy⟩ := client_answer called other next
    rw [if_neg elsewhere] at credit
    refine ⟨poised,by rw [same,sent]; exact inv.counted,by rw [same]; omega,by rw [same]; exact room,?_⟩
    intro storing
    rw [same]
    rcases busy storing with before | ⟨frameLen,acquire⟩
    · exact inv.paced before
    · exact inv.poised.paced receives drained (granted frameLen acquire).2
  | send called _ next more =>
    have here := client_commit called
    obtain ⟨there,sent⟩ := client_sent here next
    have paced := inv.paced (by rw [here]; rfl)
    rw [here,if_neg Client.Pc.noConfusion] at credit
    refine ⟨poised,?_,?_,?_,by rw [there]; exact fun busy => nomatch busy⟩
    · rw [more,sent]
      exact congrArg (· + 1) inv.counted
    · rw [more,there,if_pos rfl]
      dsimp only
      omega
    · rw [more]
      dsimp only
      omega
  | hit frame full called next more =>
    have here := client_receive called
    obtain ⟨sent,still,away⟩ := client_received here next
    rw [here,if_pos rfl] at credit
    refine ⟨poised,by rw [more,sent]; exact inv.counted,?_,by rw [more]; exact room,?_⟩
    · rw [more,if_neg (away full)]
      dsimp only
      omega
    · rw [still]
      exact fun busy => nomatch busy
  | empty called polled next less =>
    have here := client_receive called
    obtain ⟨sent,still,_⟩ := client_received here next
    have fits := drained.2 polled
    refine ⟨poised,by rw [less,sent]; exact inv.counted,?_,?_,?_⟩
    · rw [less]
      dsimp only
      omega
    · rw [less]
      dsimp only
      omega
    · rw [still]
      exact fun busy => nomatch busy

theorem Asking.disciplined_iff {s : System Client.State} {event : Event} {burst txq : Nat}
    (plus : p.tuning = .X2522Plus) (inv : Asking p setting burst txq s) :
    Disciplined p (Client.producer setting) txq s event ↔
      Completed p (Client.producer setting) (fun s => s.app.sent + 1) s event := by
  have credit := inv.credit
  apply disciplined_iff_completed plus inv.poised inv.room
  · intro _
    rw [inv.counted]
  · intro committed
    have here := client_commit (call_of_commits committed)
    have paced := inv.paced (by rw [here]; rfl)
    rw [here,if_neg Client.Pc.noConfusion] at credit
    omega

end client

theorem Generating.disciplined_iff {setting : TxGenerator.Setting} {s : System TxGenerator.State} {event : Event}
    {txq : Nat} (plus : p.tuning = .X2522Plus) (inv : Generating p setting s) (room : (account s.port.nic).waiting ≤ txq)
    (few : Few p setting txq s event) :
    Disciplined p (TxGenerator.producer setting) txq s event ↔
      Completed p (TxGenerator.producer setting) (fun s => s.app.i.toNat + 1) s event := by
  apply disciplined_iff_completed plus inv.poised room
  · intro _
    rw [inv.counted]
  · intro committed
    rw [inv.undrained,inv.counted]
    exact few committed

/-- However early the completions are, the generator has room for `txq` frames only. -/
theorem Generating.few_of_disciplined {setting : TxGenerator.Setting} {s : System TxGenerator.State} {event : Event}
    {txq : Nat} (plus : p.tuning = .X2522Plus) (inv : Generating p setting s)
    (disciplined : Disciplined p (TxGenerator.producer setting) txq s event) : Few p setting txq s event := by
  intro committed
  obtain ⟨t,moved⟩ := Option.isSome_iff_exists.mp (Bool.and_eq_true_iff.mp committed).2
  have after := disciplined.2 t moved
  have more := (step_outstanding plus inv.poised.direct moved).1 committed
  have before : (outstanding s.port.nic).length = s.app.i.toNat := inv.undrained.trans inv.counted
  omega

/-- In a run of a loop whose empty polls come often enough, and find enough completions,
for its descriptor queue, every acquired slot is free and the queue never overflows exactly
if each slot is asked for after the completion of the send before it. The generator
has no empty poll: it keeps within the queue only with no more than `txq` frames. -/
theorem slots_kept_iff_completed_in_time (plus : p.tuning = .X2522Plus) (txq : Nat) :
    (∀ (loop : Loop) (app : loop.State) (burst : Nat) (events : List Event),
      loop.Wired p → loop.Starts app → burst ≤ txq →
      Along (step p loop.producer) (loop.Paced p burst txq) (HardwareSystem.start p app) events →
        (Along (step p loop.producer) (Disciplined p loop.producer txq) (HardwareSystem.start p app) events ↔
          Along (step p loop.producer) (Completed p loop.producer loop.begun) (HardwareSystem.start p app) events)) ∧
    ∀ (setting : TxGenerator.Setting) (clock : Timespec) (events : List Event),
      (Along (step p (TxGenerator.producer setting)) (Disciplined p (TxGenerator.producer setting) txq)
          (HardwareSystem.start p (TxGenerator.start clock)) events →
        Along (step p (TxGenerator.producer setting)) (Few p setting txq)
          (HardwareSystem.start p (TxGenerator.start clock)) events) ∧
      (setting.count.toNat ≤ txq →
        Along (step p (TxGenerator.producer setting)) (Few p setting txq)
          (HardwareSystem.start p (TxGenerator.start clock)) events) := by
  refine ⟨?_,fun setting clock events => ⟨?_,?_⟩⟩
  · intro loop app burst events wired starts room paced
    cases loop with
    | client setting =>
      obtain ⟨now,clock,begun⟩ := starts
      have receives : p.hasRx = true := by
        rw [Params.hasRx,wired]
        rfl
      apply along_iff_of_invariant (Asking p setting burst txq) _ _ (.start room begun) paced
      · exact fun s event t inv drained _ moved => inv.step plus receives drained moved
      · exact fun s event inv _ => inv.disciplined_iff plus
    | server setting hw =>
      subst starts
      have receives : p.hasRx = true := by
        rw [Params.hasRx,wired]
        rfl
      apply along_iff_of_invariant (Serving p setting hw burst txq) _ _ (.start hw room) paced
      · exact fun s event t inv drained _ moved => inv.step plus receives drained moved
      · exact fun s event inv _ => inv.disciplined_iff plus
    | txgen setting =>
      obtain ⟨clock,rfl⟩ := starts
      have start : Generating p setting (HardwareSystem.start p (TxGenerator.start clock)) ∧
          (account (HardwareSystem.start p (TxGenerator.start clock)).port.nic).waiting ≤ txq :=
        ⟨.start p setting clock,Nat.zero_le txq⟩
      apply along_iff_of_invariant (fun s => Generating p setting s ∧ (account s.port.nic).waiting ≤ txq) _ _ start paced
      · exact fun s event t inv _ disciplined moved => ⟨inv.1.step plus moved,disciplined.2 t moved⟩
      · exact fun s event inv few => inv.1.disciplined_iff plus inv.2 few
  · apply along_of_invariant (Generating p setting) _ _ (.start p setting clock)
    · exact fun s event t inv _ moved => inv.step plus moved
    · exact fun s event inv disciplined => inv.few_of_disciplined plus disciplined
  · intro few
    apply along_of_invariant (Generating p setting) _ _ (.start p setting clock) (along_true _ _ events)
    · exact fun s event t inv _ moved => inv.step plus moved
    · intro s event inv _ committed
      have below := inv.below_of_commits committed
      bv_omega

def labPort : Params := EfVi.labPort .X2522Plus

def labTxPort : Params := {labPort with mode := .TxOnly}

def labTxgen : TxGenerator.Setting := ⟨HardwareSamples.labConfig,3⟩

def labFrame (slot : BitVec 32) : List Event :=
  [.answer (.flag false),.call .ok,.answer .done,.answer (.time 0),.answer .done,.call .ok,
    .report (.txWithTimestamp slot 5 0 true)]

def labFrames : List Event := .answer (.time 0) :: (labFrame 0 ++ labFrame 1 ++ labFrame 0)

def labEcho (seq : BitVec 32) : List Event :=
  [.answer (.time 0),.answer (.flag false),.call .ok,.answer .done,.call .ok,.call .ok,
    .land (HardwareSamples.labPrefix 7 ++ Client.echo HardwareSamples.labClient seq)] ++ List.replicate 4 (.call .ok)

def labBurst : List Event :=
  [.land (HardwareSamples.labPrefix 7 ++ Client.echo HardwareSamples.labClient 3),.call .ok,.call .ok,.call .ok,
    .answer .done] ++ List.replicate 4 (.call .ok)

def labReports : List Event := [.report (.txWithTimestamp 0 5 0 true),.report (.txWithTimestamp 1 6 0 true)]

def labEmptyPoll : List Event := List.replicate 10 (.call .ok)

def labBursts : List Event :=
  labBurst ++ labBurst ++ labReports ++ labEmptyPoll ++ [.call .ok] ++ labBurst ++ labBurst

/-- The echo of the third round lets the client wait once; it then skips two old stamps. -/
def labRounds : List Event :=
  labEcho 0 ++ labEcho 1 ++ labReports ++ (labEcho 2).take 6 ++ labEmptyPoll ++ (labEcho 2).drop 6 ++
    [.call .ok,.call .ok] ++ labEcho 3

theorem slots_kept_iff_completed_in_time_lab :
    ((run (step labTxPort (Loop.txgen labTxgen).producer) (HardwareSystem.start labTxPort (TxGenerator.start ⟨0,0⟩))
        labFrames).isSome = true ∧
      Along (step labTxPort (Loop.txgen labTxgen).producer) (Disciplined labTxPort (Loop.txgen labTxgen).producer 3)
        (HardwareSystem.start labTxPort (TxGenerator.start ⟨0,0⟩)) labFrames) ∧
    ((run (step labPort (Loop.server HardwareSamples.labServer rfl).producer) (HardwareSystem.start labPort Server.start)
        labBursts).isSome = true ∧
      Along (step labPort (Loop.server HardwareSamples.labServer rfl).producer)
        (Disciplined labPort (Loop.server HardwareSamples.labServer rfl).producer 2)
        (HardwareSystem.start labPort Server.start) labBursts) ∧
    ∃ app, Client.start HardwareSamples.labClient 0 ⟨0,0⟩ = some app ∧
      (run (step labPort (Loop.client HardwareSamples.labClient).producer) (HardwareSystem.start labPort app)
        labRounds).isSome = true ∧
      Along (step labPort (Loop.client HardwareSamples.labClient).producer)
        (Disciplined labPort (Loop.client HardwareSamples.labClient).producer 4)
        (HardwareSystem.start labPort app) labRounds := by
  refine ⟨⟨by decide +kernel,?_⟩,⟨by decide +kernel,?_⟩,_,rfl,by decide +kernel,?_⟩
  · obtain ⟨kept,few⟩ := slots_kept_iff_completed_in_time (p := labTxPort) rfl 3
    have short := (few labTxgen ⟨0,0⟩ labFrames).2 (by decide)
    exact (kept (.txgen labTxgen) _ 0 labFrames trivial ⟨_,rfl⟩ (by decide) short).mpr (by decide +kernel)
  · have kept := (slots_kept_iff_completed_in_time (p := labPort) rfl 2).1
    exact (kept (.server HardwareSamples.labServer rfl) _ 2 labBursts rfl rfl (by decide) (by decide +kernel)).mpr
      (by decide +kernel)
  · have kept := (slots_kept_iff_completed_in_time (p := labPort) rfl 4).1
    exact (kept (.client HardwareSamples.labClient) _ 3 labRounds rfl ⟨0,⟨0,0⟩,rfl⟩ (by decide) (by decide +kernel)).mpr
      (by decide +kernel)

/-- The generator overruns a queue of two descriptors although every send is completed at
once; client and server take a slot that is still in flight when completions are late. -/
theorem loops_overrun_slots :
    ((run (step labTxPort (Loop.txgen labTxgen).producer) (HardwareSystem.start labTxPort (TxGenerator.start ⟨0,0⟩))
        labFrames).isSome = true ∧
      ¬ Along (step labTxPort (Loop.txgen labTxgen).producer) (Disciplined labTxPort (Loop.txgen labTxgen).producer 2)
        (HardwareSystem.start labTxPort (TxGenerator.start ⟨0,0⟩)) labFrames) ∧
    ((run (step labPort (Loop.server HardwareSamples.labServer rfl).producer) (HardwareSystem.start labPort Server.start)
        (labBurst ++ labBurst ++ labBurst)).isSome = true ∧
      ¬ Along (step labPort (Loop.server HardwareSamples.labServer rfl).producer)
        (Disciplined labPort (Loop.server HardwareSamples.labServer rfl).producer 512)
        (HardwareSystem.start labPort Server.start) (labBurst ++ labBurst ++ labBurst)) ∧
    ∃ app, Client.start HardwareSamples.labClient 0 ⟨0,0⟩ = some app ∧
      (run (step labPort (Loop.client HardwareSamples.labClient).producer) (HardwareSystem.start labPort app)
        (labEcho 0 ++ labEcho 1 ++ labEcho 2)).isSome = true ∧
      ¬ Along (step labPort (Loop.client HardwareSamples.labClient).producer)
        (Disciplined labPort (Loop.client HardwareSamples.labClient).producer 512)
        (HardwareSystem.start labPort app) (labEcho 0 ++ labEcho 1 ++ labEcho 2) := by
  refine ⟨⟨by decide +kernel,by decide +kernel⟩,⟨by decide +kernel,by decide +kernel⟩,_,rfl,?_⟩
  exact ⟨by decide +kernel,by decide +kernel⟩

end Abtrda3.EfViCallers
