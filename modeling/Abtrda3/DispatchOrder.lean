import Abtrda3.Dispatch

/-! The order in which a process deals with its ports. The monitor keeps the ports that are
alive and what has been done to them. It refuses a tuner after the runtime set-up, an `init`
that starts EAL before every port is registered, a register poke before the port it is for is
up or at an address that was not resolved for it, and a loop on a port that is not up or does
not go its way. No run of `main` is refused, and its status says whether the loop that was
asked for has run. -/
namespace Abtrda3.DispatchOrder
open Abtrda3.Semantics.Machine Abtrda3.Semantics.Interaction Abtrda3.Semantics.Interaction.Program
open Abtrda3.Dispatch

def sender : Job → Option Slot
  | .server sending _ | .client sending _ | .txgen sending _ | .bench sending _ _ => some sending
  | .rxsink _ => none

def receiver : Job → Option Slot
  | .server _ receiving | .client _ receiving | .rxsink receiving | .bench _ receiving _ => some receiving
  | .txgen _ _ => none

/-- The ports alive, the last made first, those that are up and those EAL knows of, the
loops that have returned, each with the ports of its time, and the addresses that interfaces
were resolved to. -/
structure Process where
  setUp : Bool
  live : List (Slot × Port)
  up : List Slot
  prepared : List Slot
  probed : Bool
  ran : List (Job × List (Slot × Port))
  resolved : List (String × String)

namespace Process

def start : Process := ⟨false,[],[],[],false,[],[]⟩

def portIs (s : Process) (slot : Slot) (test : Port → Bool) : Bool := (s.live.lookup slot).any test

def usable (s : Process) (slot : Slot) (port : Port) : Bool := port.opens || s.up.contains slot

def registered (s : Process) (slot : Slot) : Bool :=
  s.live.all (fun entry => entry.1 = slot || !entry.2.registers || s.prepared.contains entry.1)

def upOn (s : Process) (interface : String) : Bool :=
  s.live.any (fun entry => entry.2.interface = interface && s.up.contains entry.1)

def permitted (s : Process) : Call → Bool
  | .tune _ _ _ | .setup _ _ _ => !s.setUp
  | .construct slot _ => s.setUp && (s.live.lookup slot).isNone
  | .destroy slot => s.live.head?.any (fun entry => entry.1 = slot)
  | .knob slot _ => s.portIs slot Port.registers && !s.prepared.contains slot && !s.up.contains slot
  | .prepare slot _ _ => s.portIs slot Port.registers && !s.probed && !s.up.contains slot
  | .init slot arguments => s.portIs slot arguments.suit && !s.up.contains slot && s.registered slot
  | .waitLink slot => s.up.contains slot
  | .setCoalescingZero interface => s.upOn interface
  | .i40eSetNoItr bdf interface | .igcDisableEee bdf interface => s.upOn interface && s.resolved.contains (interface,bdf)
  | .loop job => s.ran.isEmpty && (sender job).all
    (fun slot => s.portIs slot (fun port => port.sends && s.usable slot port)) &&
      (receiver job).all (fun slot => s.portIs slot (fun port => port.receives && s.usable slot port))
  | _ => true

def resolve (s : Process) (interface bdf : String) : Process := {s with resolved := (interface,bdf)::s.resolved}

def effect (s : Process) : Exchange Call Reply → Process
  | ⟨.resolveBdf interface,bdf⟩ => s.resolve interface bdf
  | ⟨.setup _ _ _,_⟩ => {s with setUp := true}
  | ⟨.construct slot port,made⟩ => if made then {s with live := (slot,port)::s.live} else s
  | ⟨.destroy slot,_⟩ =>
    {s with live := s.live.tail, up := s.up.filter (· ≠ slot), prepared := s.prepared.filter (· ≠ slot)}
  | ⟨.prepare slot _ _,accepted⟩ => if accepted then {s with prepared := slot::s.prepared} else s
  | ⟨.init slot _,result⟩ =>
    {s with probed := s.probed || s.portIs slot Port.registers,
            up := if (result : Option Bool) = some true then slot::s.up else s.up}
  | ⟨.loop job,returned⟩ => if returned then {s with ran := s.ran ++ [(job,s.live)]} else s
  | _ => s

end Process

def watch (s : Process) (exchange : Exchange Call Reply) : Option Process :=
  if s.permitted exchange.request then some (s.effect exchange) else none

abbrev Follows {α : Type} (s : Process) (p : Driver α) (post : α → Process → Prop) : Prop :=
  Safe watch (fun _ _ => True) s p post

variable {s t : Process} {slot : Slot} {port : Port} {cfg : TestConfig} {role : RoleConfig}

theorem follows_ask {request : Call} {post : Reply request → Process → Prop} (may : s.permitted request = true)
    (after : ∀ reply, post reply (s.effect ⟨request,reply⟩)) : Follows s (ask request) post :=
  safe_ask.mpr (fun reply _ => ⟨s.effect ⟨request,reply⟩,if_pos may,after reply⟩)

section Endings

/-- With a status every port made since is gone: with 0 a loop that was wanted has returned and no
other, with 1 none has. -/
def Ends (want : Job → List (Slot × Port) → Prop) (live : List (Slot × Port)) : Exit → Process → Prop
  | .ended, _ => True
  | .status code, t => t.live = live ∧
      ((code = 0 ∧ ∃ job ports, t.ran = [(job,ports)] ∧ want job ports) ∨ (code = 1 ∧ t.ran = []))

variable {want : Job → List (Slot × Port) → Prop} {live : List (Slot × Port)}

theorem ends_refused (same : t.live = live) (none : t.ran = []) : Ends want live (.status 1) t := ⟨same,.inr ⟨rfl,none⟩⟩

theorem refuse_spec (none : s.ran = []) (complaint : String) : Follows s (refuse complaint) (Ends want s.live) :=
  safe_bind.mpr (follows_ask rfl (fun _ => ends_refused rfl none))

theorem owning_spec {body : Driver Exit} (setUp : s.setUp = true) (free : s.live.lookup slot = none)
    (inside : Follows {s with live := (slot,port)::s.live} body (Ends want ((slot,port)::s.live))) :
    Follows s (owning slot port body) (Ends want s.live) := by
  refine safe_bind.mpr (follows_ask (by simp [Process.permitted,setUp,free]) ?_)
  intro made
  cases made with
  | false => exact trivial
  | true =>
    refine safe_bind.mpr (inside.mono ?_)
    intro exit t ends
    cases exit with
    | ended => exact trivial
    | status code =>
      obtain ⟨alive,outcome⟩ := ends
      refine safe_bind.mpr (follows_ask (by simp [Process.permitted,alive]) ?_)
      intro _
      exact ⟨by simp [Process.effect,alive],outcome⟩

theorem bringUp_spec {init : Driver (Option Bool)} {complaint : String} {body : Driver Exit}
    (brings : Follows s init (fun result t => t.live = live ∧ t.ran = [] ∧
      (result = some true → Follows t body (Ends want live)))) :
    Follows s (bringUp init complaint body) (Ends want live) := by
  refine safe_bind.mpr (brings.mono ?_)
  rintro result t ⟨alive,none,goes⟩
  match result with
  | some true => exact goes rfl
  | some false => exact safe_bind.mpr (follows_ask rfl (fun _ => ends_refused alive none))
  | .none => exact trivial

end Endings

structure Ready (s : Process) (slot : Slot) (port : Port) : Prop where
  there : s.live.lookup slot = some port
  usable : s.usable slot port = true

private theorem runLoop_spec {want : Job → List (Slot × Port) → Prop} {job : Job} (none : s.ran = [])
    (sends : ∀ slot ∈ sender job, ∃ port, Ready s slot port ∧ port.sends = true)
    (receives : ∀ slot ∈ receiver job, ∃ port, Ready s slot port ∧ port.receives = true) (wanted : want job s.live) :
    Follows s (runLoop job) (Ends want s.live) := by
  have sending : (sender job).all (fun slot => s.portIs slot (fun port => port.sends && s.usable slot port)) = true := by
    rw [Option.all_eq_true]
    intro slot member
    obtain ⟨port,ready,goes⟩ := sends slot member
    simp [Process.portIs,ready.there,goes,ready.usable]
  have receiving : (receiver job).all (fun slot => s.portIs
      slot (fun port => port.receives && s.usable slot port)) = true := by
    rw [Option.all_eq_true]
    intro slot member
    obtain ⟨port,ready,goes⟩ := receives slot member
    simp [Process.portIs,ready.there,goes,ready.usable]
  refine safe_bind.mpr (follows_ask (by simp [Process.permitted,none,sending,receiving]) ?_)
  intro returned
  cases returned with
  | false => exact trivial
  | true => exact ⟨rfl,.inl ⟨rfl,job,s.live,by simp [Process.effect,none],wanted⟩⟩

section Ports

structure Of (name : String) (role : RoleConfig) (port : Port) : Prop where
  kName : port.kName = name
  interface : port.interface = role.interface

structure Startable (s : Process) (slot : Slot) (port : Port) : Prop where
  there : s.live.lookup slot = some port
  down : slot ∉ s.up
  registered : s.registered slot = true

structure Brought (slot : Slot) (s t : Process) : Prop where
  setUp : t.setUp = s.setUp
  live : t.live = s.live
  ran : t.ran = s.ran
  prepared : t.prepared = s.prepared
  up : t.up = s.up ∨ t.up = slot::s.up

theorem Brought.refl (slot : Slot) (s : Process) : Brought slot s s := ⟨rfl,rfl,rfl,rfl,.inl rfl⟩

structure Like (s t : Process) : Prop where
  setUp : t.setUp = s.setUp
  live : t.live = s.live
  ran : t.ran = s.ran
  prepared : t.prepared = s.prepared
  up : t.up = s.up

theorem Like.refl (s : Process) : Like s s := ⟨rfl,rfl,rfl,rfl,rfl⟩

theorem Like.resolve (s : Process) (interface bdf : String) : Like s (s.resolve interface bdf) := ⟨rfl,rfl,rfl,rfl,rfl⟩

theorem Startable.like (startable : Startable s slot port) (like : Like s t) : Startable t slot port := by
  refine ⟨like.live ▸ startable.there,like.up ▸ startable.down,?_⟩
  rw [Process.registered,like.live,like.prepared]
  exact startable.registered

theorem Brought.after {middle : Process} (brought : Brought slot middle t) (like : Like s middle) : Brought slot s t :=
  ⟨brought.setUp.trans like.setUp,brought.live.trans like.live,brought.ran.trans like.ran,
    brought.prepared.trans like.prepared,like.up ▸ brought.up⟩

theorem upOn_of_lookup (there : s.live.lookup slot = some port) (up : slot ∈ s.up) : s.upOn port.interface = true := by
  obtain ⟨before,after,split,_⟩ := List.lookup_eq_some_iff.mp there
  rw [Process.upOn,List.any_eq_true]
  exact ⟨(slot,port),by simp [split],by simp [up]⟩

theorem init_spec {arguments : InitArguments} (suits : arguments.suit port = true) (startable : Startable s slot port) :
    Follows s (ask (Call.init slot arguments) : Driver (Option Bool))
      (fun result t => Brought slot s t ∧ t.resolved = s.resolved ∧ (result = some true → slot ∈ t.up)) := by
  refine follows_ask ?_ ?_
  · simp [Process.permitted,Process.portIs,startable.there,suits,startable.down,startable.registered]
  · intro result
    refine ⟨⟨rfl,rfl,rfl,rfl,?_⟩,rfl,?_⟩
    · by_cases came : (result : Option Bool) = some true
      · exact .inr (if_pos came)
      · exact .inl (if_neg came)
    · intro came
      change slot ∈ (if (result : Option Bool) = some true then slot::s.up else s.up)
      rw [if_pos came]
      exact List.mem_cons_self

private theorem writeback_spec {bdf ifname : String} (tag : String) (on : s.upOn ifname = true)
    (known : (ifname,bdf) ∈ s.resolved) : Follows s (i40eApplyWritebackPolicy bdf ifname tag) (fun _ t => t = s) :=
  safe_bind.mpr (follows_ask (by simp [Process.permitted,on,known]) (fun _ => follows_ask rfl (fun _ => rfl)))

private theorem setKnobs_spec (registers : s.portIs slot Port.registers = true) (unprepared : slot ∉ s.prepared)
    (down : slot ∉ s.up)
    (knobs : List Knob) : Follows s (setKnobs slot knobs) (fun _ t => t = s) := by
  refine safe_each (fun _ t => t = s) ?_ knobs rfl
  intro t knob rest same
  subst same
  exact follows_ask (by simp [Process.permitted,registers,unprepared,down]) (fun _ => rfl)

theorem dpdkPreInit_spec (registers : s.portIs slot Port.registers = true) (unprepared : slot ∉ s.prepared)
    (down : slot ∉ s.up)
    (role : RoleConfig) : Follows s (dpdkPreInit slot role) (fun bdf t => t = s.resolve role.interface bdf) := by
  refine safe_bind.mpr (follows_ask rfl (fun bdf => ?_))
  have knobs (has : Bool) (knobs : List Knob) : Follows (s.resolve role.interface bdf) (given has (setKnobs slot knobs) ())
      (fun _ t => t = s.resolve role.interface bdf) := by
    refine safe_given (fun _ => ?_) (fun _ => rfl)
    exact setKnobs_spec (s := s.resolve role.interface bdf) registers unprepared down knobs
  refine safe_bind.mpr ((knobs _ _).mono ?_)
  rintro _ _ rfl
  refine safe_bind.mpr ((knobs _ _).mono ?_)
  rintro _ _ rfl
  refine safe_bind.mpr ((knobs _ _).mono ?_)
  rintro _ _ rfl
  rfl

theorem dpdkPostInitFixes_spec {bdf : String} (on : s.upOn role.interface = true)
    (known : (role.interface,bdf) ∈ s.resolved) : Follows s (dpdkPostInitFixes bdf role) (fun _ t => t = s) := by
  refine safe_bind.mpr ((safe_given (fun _ => writeback_spec _ on known) (fun _ => rfl)).mono ?_)
  rintro _ _ rfl
  exact safe_given (fun _ => follows_ask (by simp [Process.permitted,on,known]) (fun _ => rfl)) (fun _ => rfl)

end Ports

section Transports

def Brings (name : String) (init : Slot → TestConfig → RoleConfig → Driver (Option Bool)) : Prop :=
  ∀ {s : Process} {slot : Slot} {port : Port} (cfg : TestConfig) {role : RoleConfig}, Of name role port →
    Startable s slot port → slot ∉ s.prepared →
    Follows s (init slot cfg role) (fun result t => Brought slot s t ∧ (result = some true → t.usable slot port = true))

theorem usable_of_up (up : slot ∈ s.up) : s.usable slot port = true := by simp [Process.usable,up]

private theorem packetMmap_brings : Brings "packet_mmap" packetMmapInit := by
  intro s slot port cfg role belongs startable unprepared
  refine ⟨.refl slot s,fun _ => ?_⟩
  obtain ⟨name,_⟩ := belongs
  cases port <;> simp_all [Port.kName,Process.usable,Port.opens]

theorem plain_brings {name : String} (others : name ∉ ["packet_mmap","af_xdp","dpdk"]) : Brings name plainInit := by
  intro s slot port cfg role belongs startable unprepared
  have suits : InitArguments.plain.suit port = true := by
    obtain ⟨named,_⟩ := belongs
    cases port <;> simp_all [Port.kName,InitArguments.suit]
  refine (init_spec suits startable).mono ?_
  rintro result t ⟨brought,_,up⟩
  exact ⟨brought,fun came => usable_of_up (up came)⟩

private theorem afxdp_brings : Brings "af_xdp" afxdpInit := by
  intro s slot port cfg role belongs startable unprepared
  have suits (deferral irqSuspend : Bool) : (InitArguments.afxdp deferral irqSuspend).suit port = true := by
    obtain ⟨name,_⟩ := belongs
    cases port <;> simp_all [Port.kName,InitArguments.suit]
  refine safe_bind.mpr (follows_ask rfl (fun isI40e => ?_))
  have asked : Follows s (given isI40e (ask (Call.resolveBdf role.interface)) "")
      (fun bdf t => Like s t ∧ (isI40e = true → (role.interface,bdf) ∈ t.resolved)) := by
    refine safe_given (fun _ => follows_ask rfl (fun bdf => ⟨.resolve s _ _,fun _ => List.mem_cons_self⟩)) ?_
    intro other
    rw [other]
    exact ⟨.refl s,fun same => nomatch same⟩
  refine safe_bind.mpr (asked.mono ?_)
  rintro bdf middle ⟨like,known⟩
  have startable := startable.like like
  have reported : Follows middle (given isI40e (ask (Call.reportItr bdf role.interface "AFXDP-ITR pre-bind")) ())
      (fun _ t => t = middle) :=
    safe_given (fun _ => follows_ask rfl (fun _ => rfl)) (fun _ => rfl)
  refine safe_bind.mpr (reported.mono ?_)
  rintro _ _ rfl
  refine safe_bind.mpr ((init_spec (suits _ _) startable).mono ?_)
  rintro result t ⟨brought,same,up⟩
  have brought := brought.after like
  match result with
  | some true =>
    have on : t.upOn role.interface = true := by
      rw [← belongs.interface]
      exact upOn_of_lookup (brought.live ▸ like.live ▸ startable.there) (up rfl)
    have zeroed : Follows t (given (cfg.nicTunerMode ≠ .Off) (ask (Call.setCoalescingZero role.interface)) false)
        (fun _ u => u = t) :=
      safe_given (fun _ => follows_ask on (fun _ => rfl)) (fun _ => rfl)
    refine safe_bind.mpr (zeroed.mono ?_)
    rintro _ _ rfl
    refine safe_bind.mpr ((safe_given (fun isOne => writeback_spec _ on (same ▸ known isOne)) (fun _ => rfl)).mono ?_)
    rintro _ _ rfl
    exact ⟨brought,fun _ => usable_of_up (up rfl)⟩
  | some false => exact ⟨brought,fun came => by cases came⟩
  | none => exact ⟨brought,fun came => by cases came⟩

private theorem registers_of_kName (name : port.kName = "dpdk") : port.registers = true := by
  cases port <;> simp_all [Port.kName,Port.registers]

theorem dpdk_suits (name : port.kName = "dpdk") (doWaitLink : Bool) :
    (dpdkArguments doWaitLink cfg role).suit port = true := by
  cases port <;> simp_all [Port.kName,dpdkArguments,InitArguments.suit]

private theorem dpdk_brings : Brings "dpdk" dpdkInit := by
  intro s slot port cfg role belongs startable unprepared
  have registers : s.portIs slot Port.registers = true := by
    simp [Process.portIs,startable.there,registers_of_kName belongs.kName]
  refine safe_bind.mpr ((dpdkPreInit_spec registers unprepared startable.down role).mono ?_)
  rintro bdf _ rfl
  have like : Like s (s.resolve role.interface bdf) := .resolve s _ _
  refine safe_bind.mpr ((init_spec (dpdk_suits belongs.kName true) (startable.like like)).mono ?_)
  rintro result t ⟨brought,same,up⟩
  have brought := brought.after like
  match result with
  | some true =>
    have on : t.upOn role.interface = true := by
      rw [← belongs.interface]
      exact upOn_of_lookup (brought.live ▸ startable.there) (up rfl)
    have known : (role.interface,bdf) ∈ t.resolved := by
      rw [same]
      exact List.mem_cons_self
    refine safe_bind.mpr ((dpdkPostInitFixes_spec on known).mono ?_)
    rintro _ _ rfl
    exact ⟨brought,fun _ => usable_of_up (up rfl)⟩
  | some false => exact ⟨brought,fun came => by cases came⟩
  | none => exact ⟨brought,fun came => by cases came⟩

structure Paired (name : String) (txRole rxRole : RoleConfig) (txPort rxPort : Port) (s : Process) : Prop where
  live : s.live = [(.rx,rxPort),(.tx,txPort)]
  ran : s.ran = []
  tx : Of name txRole txPort
  rx : Of name rxRole rxPort
  sends : txPort.sends = true
  receives : rxPort.receives = true
  txUsable : s.usable .tx txPort = true
  rxUsable : s.usable .rx rxPort = true

def settled : Process := {Process.start with setUp := true}

theorem Brought.usable {other : Slot} (brought : Brought other s t) (usable : s.usable slot port = true) :
    t.usable slot port = true := by
  rcases brought.up with same | more
  · simpa [Process.usable,same] using usable
  · simp only [Process.usable,more,List.contains_cons,Bool.or_eq_true] at usable ⊢
    exact usable.imp_right .inr

private theorem bothUp_spec {name : String} {init : Slot → TestConfig → RoleConfig → Driver (Option Bool)}
    (brings : Brings name init)
    {want : Job → List (Slot × Port) → Prop} {txRole rxRole : RoleConfig} {txPort rxPort : Port}
      {txComplaint rxComplaint : String}
    {fn : Driver Exit} (tx : Of name txRole txPort) (rx : Of name rxRole rxPort) (sends : txPort.sends = true)
    (receives : rxPort.receives = true) (txPlain : txPort.registers = false) (rxPlain : rxPort.registers = false)
    (goes : ∀ s, Paired name txRole rxRole txPort rxPort s → Follows s fn (Ends want s.live)) :
    Follows settled (owning .tx txPort <| owning .rx rxPort <| bringUp (init .tx cfg txRole) txComplaint <|
      bringUp (init .rx cfg rxRole) rxComplaint fn) (Ends want []) := by
  refine owning_spec rfl rfl (owning_spec rfl rfl (bringUp_spec ?_))
  have first : Startable {settled with live := [(.rx,rxPort),(.tx,txPort)]} .tx txPort :=
    ⟨rfl,List.not_mem_nil,by simp [Process.registered,rxPlain]⟩
  refine (brings cfg tx first List.not_mem_nil).mono ?_
  rintro _ s ⟨early,txUp⟩
  refine ⟨early.live,early.ran,fun came => bringUp_spec ?_⟩
  have second : Startable s .rx rxPort := by
    refine ⟨by rw [early.live]; rfl,?_,by simp [Process.registered,early.live,txPlain]⟩
    rcases early.up with same | more
    · rw [same]
      exact List.not_mem_nil
    · rw [more]
      simp [settled,Process.start]
  have unprepared : .rx ∉ s.prepared := by
    rw [early.prepared]
    exact List.not_mem_nil
  refine (brings cfg rx second unprepared).mono ?_
  rintro _ t ⟨late,rxUp⟩
  have alive : t.live = [(.rx,rxPort),(.tx,txPort)] := late.live.trans early.live
  have none : t.ran = [] := late.ran.trans early.ran
  refine ⟨alive,none,fun ready => ?_⟩
  have follows := goes t ⟨alive,none,tx,rx,sends,receives,late.usable (txUp came),rxUp ready⟩
  rwa [alive] at follows

def Pairs (name : String) (pair : TestConfig → Driver Exit → Driver Exit) : Prop :=
  ∀ (cfg : TestConfig) (fn : Driver Exit) (want : Job → List (Slot × Port) → Prop),
    (∀ s txPort rxPort, Paired name cfg.client cfg.server txPort rxPort s → Follows s fn (Ends want s.live)) →
    Follows settled (pair cfg fn) (Ends want [])

theorem basePair_pairs {name : String} {init : Slot → TestConfig → RoleConfig → Driver (Option Bool)}
    (brings : Brings name init)
    {makeTx makeRx : TestConfig → RoleConfig → Port}
      (tx : ∀ cfg role, Of name role (makeTx cfg role) ∧ (makeTx cfg role).sends = true)
    (rx : ∀ cfg role, Of name role (makeRx cfg role) ∧ (makeRx cfg role).receives = true)
    (plain : ∀ port : Port, port.kName = name → port.registers = false) :
      Pairs name (basePair name makeTx makeRx init) := by
  intro cfg fn want goes
  exact bothUp_spec brings (tx cfg cfg.client).1 (rx cfg cfg.server).1 (tx cfg cfg.client).2 (rx cfg cfg.server).2
    (plain _ (tx cfg cfg.client).1.kName) (plain _ (rx cfg cfg.server).1.kName) (fun s ready => goes s _ _ ready)

private theorem waitLink_spec (up : slot ∈ s.up) : Follows s (waitLink slot) (fun _ t => t = s) :=
  safe_bind.mpr (follows_ask (by simp [Process.permitted,up]) (fun _ => rfl))

private theorem dpdkStart_spec {want : Job → List (Slot × Port) → Prop} {fn : Driver Exit} {txPort rxPort : Port}
    {txBdf rxBdf : String}
    (tx : Of "dpdk" cfg.client txPort) (rx : Of "dpdk" cfg.server rxPort) (sends : txPort.sends = true)
    (receives : rxPort.receives = true) (live : s.live = [(.rx,rxPort),(.tx,txPort)]) (ran : s.ran = []) (up : s.up = [])
    (prepared : s.prepared = [.rx,.tx])
    (known : (cfg.client.interface,txBdf) ∈ s.resolved ∧ (cfg.server.interface,rxBdf) ∈ s.resolved)
    (goes : ∀ s, Paired "dpdk" cfg.client cfg.server txPort rxPort s → Follows s fn (Ends want s.live)) :
    Follows s (dpdkStart cfg txBdf rxBdf fn) (Ends want [(.rx,rxPort),(.tx,txPort)]) := by
  have first : Startable s .tx txPort := ⟨by rw [live]; rfl,by simp [up],by simp [Process.registered,live,prepared]⟩
  refine bringUp_spec ((init_spec (dpdk_suits tx.kName false) first).mono ?_)
  rintro _ t ⟨early,still,txUp⟩
  refine ⟨early.live.trans live,early.ran.trans ran,fun came => bringUp_spec ?_⟩
  have second : Startable t .rx rxPort := by
    refine ⟨by rw [early.live,live]; rfl,?_,by simp [Process.registered,early.live,early.prepared,live,prepared]⟩
    rcases early.up with same | more
    · simp [same,up]
    · simp [more,up]
  refine (init_spec (dpdk_suits rx.kName false) second).mono ?_
  rintro _ u ⟨late,same,rxUp⟩
  rw [← still,← same] at known
  have alive : u.live = [(.rx,rxPort),(.tx,txPort)] := late.live.trans (early.live.trans live)
  have none : u.ran = [] := late.ran.trans (early.ran.trans ran)
  refine ⟨alive,none,fun ready => ?_⟩
  have txIn : .tx ∈ u.up := by
    rcases late.up with same | more
    · rw [same]
      exact txUp came
    · rw [more]
      exact List.mem_cons_of_mem _ (txUp came)
  have rxIn : .rx ∈ u.up := rxUp ready
  have txOn : u.upOn cfg.client.interface = true := tx.interface ▸ upOn_of_lookup (by rw [alive]; rfl) txIn
  have rxOn : u.upOn cfg.server.interface = true := rx.interface ▸ upOn_of_lookup (by rw [alive]; rfl) rxIn
  refine safe_bind.mpr ((dpdkPostInitFixes_spec txOn known.1).mono ?_)
  rintro _ u rfl
  refine safe_bind.mpr ((dpdkPostInitFixes_spec rxOn known.2).mono ?_)
  rintro _ u rfl
  refine bringUp_spec ((waitLink_spec txIn).mono ?_)
  rintro _ u rfl
  refine ⟨alive,none,fun _ => bringUp_spec ((waitLink_spec rxIn).mono ?_)⟩
  rintro _ u rfl
  refine ⟨alive,none,fun _ => ?_⟩
  have follows := goes u ⟨alive,none,tx,rx,sends,receives,usable_of_up txIn,usable_of_up rxIn⟩
  rwa [alive] at follows

private theorem dpdkPrepare_spec {txPort rxPort : Port} (tx : txPort.registers = true) (rx : rxPort.registers = true)
    (resolved : List (String × String)) :
    Follows {settled with live := [(.rx,rxPort),(.tx,txPort)], resolved := resolved} (dpdkPrepare cfg) (fun result t =>
      t.live = [(.rx,rxPort),(.tx,txPort)] ∧ t.ran = [] ∧ t.resolved = resolved ∧
        (result = some true → t.up = [] ∧ t.prepared = [.rx,.tx])) := by
  refine safe_bind.mpr (follows_ask ?_ ?_)
  · change (txPort.registers && true && true) = true
    simp [tx]
  intro first
  cases first with
  | false => exact ⟨rfl,rfl,rfl,fun came => by cases came⟩
  | true =>
    refine safe_bind.mpr (follows_ask ?_ ?_)
    · change (rxPort.registers && true && true) = true
      simp [rx]
    intro both
    cases both with
    | false => exact ⟨rfl,rfl,rfl,fun came => by cases came⟩
    | true => exact ⟨rfl,rfl,rfl,fun _ => ⟨rfl,rfl⟩⟩

private theorem dpdkPair_pairs : Pairs "dpdk" dpdkPair := by
  intro cfg fn want goes
  refine owning_spec rfl rfl (owning_spec rfl rfl ?_)
  refine safe_bind.mpr ((dpdkPreInit_spec rfl List.not_mem_nil List.not_mem_nil _).mono ?_)
  rintro txBdf _ rfl
  refine safe_bind.mpr ((dpdkPreInit_spec rfl List.not_mem_nil List.not_mem_nil _).mono ?_)
  rintro rxBdf _ rfl
  refine bringUp_spec ((dpdkPrepare_spec rfl rfl _).mono ?_)
  rintro _ t ⟨live,ran,resolved,prepares⟩
  refine ⟨live,ran,fun came => ?_⟩
  obtain ⟨up,prepared⟩ := prepares came
  have known : (cfg.client.interface,txBdf) ∈ t.resolved ∧ (cfg.server.interface,rxBdf) ∈ t.resolved := by
    rw [resolved]
    exact ⟨List.mem_cons_of_mem _ List.mem_cons_self,List.mem_cons_self⟩
  exact dpdkStart_spec ⟨rfl,rfl⟩ ⟨rfl,rfl⟩ rfl rfl live ran up prepared known (fun s ready => goes s _ _ ready)

structure Sound (t : Traits) : Prop where
  preflight : ∀ s, Follows s t.preflight (fun _ u => u = s)
  makeTx : ∀ cfg role, Of t.kName role (t.makeTx cfg role) ∧ (t.makeTx cfg role).sends = true
  makeRx : ∀ cfg role, Of t.kName role (t.makeRx cfg role) ∧ (t.makeRx cfg role).receives = true
  makeRxTx : ∀ make ∈ t.makeRxTx, ∀ cfg role,
    Of t.kName role (make cfg role) ∧ (make cfg role).sends = true ∧ (make cfg role).receives = true
  init : Brings t.kName t.init
  separate : t.makeRxTx = none → ∀ port : Port, port.kName = t.kName → port.registers = false
  single : Pairs t.kName t.withSinglePair

theorem plain_of_kName {name : String} (other : name ≠ "dpdk") (port : Port) (named : port.kName = name) :
    port.registers = false := by
  cases port <;> simp_all [Port.kName,Port.registers]

private theorem packetMmap_sound : Sound packetMmapTraits where
  preflight _ := rfl
  makeTx _ _ := ⟨⟨rfl,rfl⟩,rfl⟩
  makeRx _ _ := ⟨⟨rfl,rfl⟩,rfl⟩
  makeRxTx _ member := by cases member
  init := packetMmap_brings
  separate _ := plain_of_kName (by decide)
  single := basePair_pairs packetMmap_brings (fun _ _ => ⟨⟨rfl,rfl⟩,rfl⟩) (fun _ _ => ⟨⟨rfl,rfl⟩,rfl⟩)
    (plain_of_kName (by decide))

private theorem afxdp_sound : Sound afxdpTraits where
  preflight _ := rfl
  makeTx _ _ := ⟨⟨rfl,rfl⟩,rfl⟩
  makeRx _ _ := ⟨⟨rfl,rfl⟩,rfl⟩
  makeRxTx _ member _ _ := by cases member; exact ⟨⟨rfl,rfl⟩,rfl,rfl⟩
  init := afxdp_brings
  separate absent := by cases absent
  single := basePair_pairs afxdp_brings (fun _ _ => ⟨⟨rfl,rfl⟩,rfl⟩) (fun _ _ => ⟨⟨rfl,rfl⟩,rfl⟩)
    (plain_of_kName (by decide))

private theorem dpdk_sound : Sound dpdkTraits where
  preflight _ := rfl
  makeTx _ _ := ⟨⟨rfl,rfl⟩,rfl⟩
  makeRx _ _ := ⟨⟨rfl,rfl⟩,rfl⟩
  makeRxTx _ member _ _ := by cases member; exact ⟨⟨rfl,rfl⟩,rfl,rfl⟩
  init := dpdk_brings
  separate absent := by cases absent
  single := dpdkPair_pairs

private theorem verbs_sound : Sound verbsTraits where
  preflight _ := rfl
  makeTx _ _ := ⟨⟨rfl,rfl⟩,rfl⟩
  makeRx _ _ := ⟨⟨rfl,rfl⟩,rfl⟩
  makeRxTx _ member _ _ := by cases member; exact ⟨⟨rfl,rfl⟩,rfl,rfl⟩
  init := plain_brings (by decide)
  separate absent := by cases absent
  single := basePair_pairs (plain_brings (by decide)) (fun _ _ => ⟨⟨rfl,rfl⟩,rfl⟩) (fun _ _ => ⟨⟨rfl,rfl⟩,rfl⟩)
    (plain_of_kName (by decide))

private theorem etherFabric_sound : Sound etherFabricTraits where
  preflight _ := rfl
  makeTx _ _ := ⟨⟨rfl,rfl⟩,rfl⟩
  makeRx _ _ := ⟨⟨rfl,rfl⟩,rfl⟩
  makeRxTx _ member _ _ := by cases member; exact ⟨⟨rfl,rfl⟩,rfl,rfl⟩
  init := plain_brings (by decide)
  separate absent := by cases absent
  single := basePair_pairs (plain_brings (by decide)) (fun _ _ => ⟨⟨rfl,rfl⟩,rfl⟩) (fun _ _ => ⟨⟨rfl,rfl⟩,rfl⟩)
    (plain_of_kName (by decide))

private theorem i210Preflight_spec (s : Process) : Follows s i210Preflight (fun _ t => t = s) := by
  refine safe_bind.mpr (follows_ask rfl (fun allocated => ?_))
  have said : Follows s (given (!allocated) (print "Error: hugepage allocation failed") ()) (fun _ t => t = s) :=
    safe_given (fun _ => follows_ask rfl (fun _ => rfl)) (fun _ => rfl)
  exact safe_bind.mpr (said.mono (fun _ _ same => same))

private theorem i210_sound : Sound i210Traits where
  preflight := i210Preflight_spec
  makeTx _ _ := ⟨⟨rfl,rfl⟩,rfl⟩
  makeRx _ _ := ⟨⟨rfl,rfl⟩,rfl⟩
  makeRxTx _ member _ _ := by cases member; exact ⟨⟨rfl,rfl⟩,rfl,rfl⟩
  init := plain_brings (by decide)
  separate absent := by cases absent
  single := basePair_pairs (plain_brings (by decide)) (fun _ _ => ⟨⟨rfl,rfl⟩,rfl⟩) (fun _ _ => ⟨⟨rfl,rfl⟩,rfl⟩)
    (plain_of_kName (by decide))

private theorem transports_sound (build : Build) (t : Traits) (member : t ∈ build.transports) : Sound t := by
  simp only [Build.transports,List.mem_append,List.mem_cons,List.mem_ite_nil_right,List.not_mem_nil,or_false] at member
  rcases member with ((((rfl | rfl) | ⟨_,rfl⟩) | ⟨_,rfl⟩) | ⟨_,rfl⟩) | ⟨_,rfl⟩
  · exact packetMmap_sound
  · exact afxdp_sound
  · exact dpdk_sound
  · exact verbs_sound
  · exact etherFabric_sound
  · exact i210_sound

end Transports

section Modes

def selected (args : CliArgs) (cfg : TestConfig) (sending receiving : Slot) : Job :=
  match args.runMode with
  | .Server => .server sending receiving
  | .Client => .client sending receiving
  | .TxGen => .txgen sending (countOf args cfg)
  | .RxSink => .rxsink receiving
  | .SingleRecorder => .bench sending receiving cfg.recDurationSec

def txRole (args : CliArgs) (cfg : TestConfig) : RoleConfig :=
  if args.runMode = .SingleRecorder then cfg.client else roleOf args cfg

def rxRole (args : CliArgs) (cfg : TestConfig) : RoleConfig :=
  if args.runMode = .SingleRecorder then cfg.server else roleOf args cfg

/-- The loop is the one asked for, and it has the ports of its roles. -/
structure Wanted (args : CliArgs) (cfg : TestConfig) (job : Job) (ports : List (Slot × Port)) : Prop where
  asked : ∃ sending receiving, job = selected args cfg sending receiving
  sending : ∀ slot ∈ sender job, ∃ port, ports.lookup slot = some port ∧
    Of (txRole args cfg).transport (txRole args cfg) port
  receiving : ∀ slot ∈ receiver job, ∃ port, ports.lookup slot = some port ∧
    Of (rxRole args cfg).transport (rxRole args cfg) port

variable {want : Job → List (Slot × Port) → Prop} {t : Traits} {args : CliArgs} {build : Build}

private theorem runOn_spec (sound : Sound t) {mode : RunMode} {job : Driver Exit} (belongs : Of t.kName role port)
    (goes : ∀ s, s.live = [(.nic,port)] → s.ran = [] → s.usable .nic port = true → Follows s job (Ends want s.live)) :
    Follows settled (runOn t cfg role mode port job) (Ends want []) := by
  refine owning_spec rfl rfl (bringUp_spec ?_)
  have startable : Startable {settled with live := [(.nic,port)]} .nic port :=
      ⟨rfl,List.not_mem_nil,by simp [Process.registered]⟩
  refine (sound.init cfg belongs startable List.not_mem_nil).mono ?_
  rintro _ s ⟨brought,usable⟩
  refine ⟨brought.live,brought.ran,fun came => ?_⟩
  refine safe_bind.mpr (follows_ask rfl (fun _ => ?_))
  have follows := goes s brought.live brought.ran (usable came)
  rwa [brought.live] at follows

private theorem runPaired_spec (sound : Sound t) (separate : t.makeRxTx = none) {mode : RunMode} {job : Driver Exit}
    (goes : ∀ s txPort rxPort, Paired t.kName role role txPort rxPort s → Follows s job (Ends want s.live)) :
    Follows settled (runPaired t cfg role mode job) (Ends want []) := by
  obtain ⟨tx,sends⟩ := sound.makeTx cfg role
  obtain ⟨rx,receives⟩ := sound.makeRx cfg role
  refine bothUp_spec sound.init tx rx sends receives (sound.separate separate _ tx.kName)
      (sound.separate separate _ rx.kName) ?_
  intro s paired
  exact safe_bind.mpr (follows_ask rfl (fun _ => goes s _ _ paired))

private theorem sender_selected {sending receiving slot : Slot}
    (member : slot ∈ sender (selected args cfg sending receiving)) :
    slot = sending := by
  unfold selected at member
  split at member <;> simp_all [sender]

private theorem receiver_selected {sending receiving slot : Slot}
    (member : slot ∈ receiver (selected args cfg sending receiving)) :
    slot = receiving := by
  unfold selected at member
  split at member <;> simp_all [receiver]

theorem selected_spec {sending receiving : Slot} {txPort rxPort : Port} (none : s.ran = []) (tx : Ready s sending txPort)
    (rx : Ready s receiving rxPort) (sends : sender (selected args cfg sending receiving) ≠ .none → txPort.sends = true)
    (receives : receiver (selected args cfg sending receiving) ≠ .none → rxPort.receives = true)
    (txOf : Of (txRole args cfg).transport (txRole args cfg) txPort)
    (rxOf : Of (rxRole args cfg).transport (rxRole args cfg) rxPort) :
    Follows s (runLoop (selected args cfg sending receiving)) (Ends (Wanted args cfg) s.live) := by
  refine runLoop_spec none ?_ ?_ ⟨⟨sending,receiving,rfl⟩,?_,?_⟩
  · intro slot member
    rw [sender_selected member]
    exact ⟨txPort,tx,sends (Option.ne_none_iff_exists'.mpr ⟨slot,member⟩)⟩
  · intro slot member
    rw [receiver_selected member]
    exact ⟨rxPort,rx,receives (Option.ne_none_iff_exists'.mpr ⟨slot,member⟩)⟩
  · intro slot member
    rw [sender_selected member]
    exact ⟨txPort,tx.there,txOf⟩
  · intro slot member
    rw [receiver_selected member]
    exact ⟨rxPort,rx.there,rxOf⟩

theorem Paired.ready {name : String} {first second : RoleConfig} {txPort rxPort : Port}
    (paired : Paired name first second txPort rxPort s) : Ready s .tx txPort ∧ Ready s .rx rxPort :=
  ⟨⟨by rw [paired.live]; rfl,paired.txUsable⟩,⟨by rw [paired.live]; rfl,paired.rxUsable⟩⟩

private theorem roles_of_several (several : args.runMode ≠ .SingleRecorder) :
    txRole args cfg = roleOf args cfg ∧ rxRole args cfg = roleOf args cfg := ⟨if_neg several,if_neg several⟩

theorem alone_spec (sound : Sound t) (named : (roleOf args cfg).transport = t.kName)
    (several : args.runMode ≠ .SingleRecorder)
    (belongs : Of t.kName (roleOf args cfg) port) (sends : sender (selected args cfg .nic .nic) ≠ none → port.sends = true)
    (receives : receiver (selected args cfg .nic .nic) ≠ none → port.receives = true) :
    Follows settled (runOn t cfg (roleOf args cfg) args.runMode port (runLoop (selected args cfg .nic .nic)))
      (Ends (Wanted args cfg) []) := by
  obtain ⟨txIs,rxIs⟩ := roles_of_several several
  refine runOn_spec sound belongs ?_
  intro s live ran usable
  have ready : Ready s .nic port := ⟨by rw [live]; rfl,usable⟩
  refine selected_spec ran ready ready sends receives ?_ ?_
  · rw [txIs,named]
    exact belongs
  · rw [rxIs,named]
    exact belongs

private theorem apart_spec (sound : Sound t) (separate : t.makeRxTx = none) (named : (roleOf args cfg).transport = t.kName)
    (several : args.runMode ≠ .SingleRecorder) :
    Follows settled (runPaired t cfg (roleOf args cfg) args.runMode (runLoop (selected args cfg .tx .rx)))
      (Ends (Wanted args cfg) []) := by
  obtain ⟨txIs,rxIs⟩ := roles_of_several several
  refine runPaired_spec sound separate ?_
  intro s txPort rxPort paired
  refine selected_spec paired.ran paired.ready.1 paired.ready.2 (fun _ => paired.sends) (fun _ => paired.receives) ?_ ?_
  · rw [txIs,named]
    exact paired.tx
  · rw [rxIs,named]
    exact paired.rx

private theorem duplex_spec (sound : Sound t) (named : (roleOf args cfg).transport = t.kName)
    (several : args.runMode ≠ .SingleRecorder)
    (loops : ∀ sending receiving, dispatchMode sending receiving args.runMode (countOf args cfg) =
      runLoop (selected args cfg sending receiving)) :
    Follows settled (match t.makeRxTx with
      | none => runPaired t cfg (roleOf args cfg) args.runMode (dispatchMode .tx .rx args.runMode (countOf args cfg))
      | some makeRxTx => runOn t cfg (roleOf args cfg) args.runMode (makeRxTx cfg (roleOf args cfg))
          (dispatchMode .nic .nic args.runMode (countOf args cfg))) (Ends (Wanted args cfg) []) := by
  rw [loops,loops]
  cases form : t.makeRxTx with
  | none => exact apart_spec sound form named several
  | some make =>
    obtain ⟨belongs,sends,receives⟩ := sound.makeRxTx make form cfg (roleOf args cfg)
    exact alone_spec sound named several belongs (fun _ => sends) (fun _ => receives)

private theorem runModes_spec (sound : Sound t) (named : (roleOf args cfg).transport = t.kName)
    (several : args.runMode ≠ .SingleRecorder) :
    Follows settled (runModes t cfg (roleOf args cfg) args.runMode (countOf args cfg)) (Ends (Wanted args cfg) []) := by
  have duplex := duplex_spec sound named several
  refine safe_bind.mpr ((sound.preflight settled).mono ?_)
  rintro ready _ rfl
  cases ready with
  | false => exact ends_refused rfl rfl
  | true =>
    cases mode : args.runMode with
    | Server =>
      rw [mode] at duplex
      exact duplex (fun _ _ => by simp [dispatchMode,selected,mode])
    | Client =>
      rw [mode] at duplex
      exact duplex (fun _ _ => by simp [dispatchMode,selected,mode])
    | TxGen =>
      obtain ⟨belongs,sends⟩ := sound.makeTx cfg (roleOf args cfg)
      have follows := alone_spec sound named several belongs (fun _ => sends)
        (fun some => absurd (by simp [selected,mode,receiver]) some)
      rw [mode,show selected args cfg .nic .nic = .txgen .nic (countOf args cfg) by simp [selected,mode]] at follows
      exact follows
    | RxSink =>
      obtain ⟨belongs,receives⟩ := sound.makeRx cfg (roleOf args cfg)
      have follows := alone_spec sound named several belongs (fun some => absurd (by simp [selected,mode,sender]) some)
        (fun _ => receives)
      rw [mode,show selected args cfg .nic .nic = .rxsink .nic by simp [selected,mode]] at follows
      exact follows
    | SingleRecorder => exact absurd mode several

private theorem withTransport_spec {name : String} {fn : Traits → Driver Exit}
    (goes : ∀ t, Sound t → name = t.kName → Follows settled (fn t) (Ends want [])) :
    Follows settled (withTransport build name fn) (Ends want []) := by
  unfold withTransport
  cases found : build.transports.find? (fun t => name = t.kName) with
  | none => exact refuse_spec rfl _
  | some t =>
    have named : name = t.kName := by simpa using List.find?_some found
    exact goes t (transports_sound build t (List.mem_of_find?_eq_some found)) named

private theorem runSingleRecorder_spec (single : args.runMode = .SingleRecorder) :
    Follows settled (runSingleRecorder build cfg) (Ends (Wanted args cfg) []) := by
  have txIs : txRole args cfg = cfg.client := if_pos single
  have rxIs : rxRole args cfg = cfg.server := if_pos single
  unfold runSingleRecorder
  split
  · exact refuse_spec rfl _
  next same =>
  split
  · exact refuse_spec rfl _
  refine safe_bind.mpr (follows_ask rfl (fun _ => withTransport_spec ?_))
  intro t sound named
  unfold runSingleFor
  split
  · refine safe_bind.mpr ((sound.preflight _).mono ?_)
    rintro client _ rfl
    refine safe_bind.mpr ((safe_given (fun _ => sound.preflight _) (fun _ => rfl)).mono ?_)
    rintro both _ rfl
    cases both with
    | false => exact ends_refused rfl rfl
    | true =>
      refine sound.single cfg _ _ ?_
      intro s txPort rxPort paired
      have job : Job.bench .tx .rx cfg.recDurationSec = selected args cfg .tx .rx := by simp [selected,single]
      rw [job]
      refine selected_spec paired.ran paired.ready.1 paired.ready.2 (fun _ => paired.sends) (fun _ => paired.receives) ?_ ?_
      · rw [txIs,named]
        exact paired.tx
      · rw [rxIs,Decidable.not_not.mp same,named]
        exact paired.rx
  · exact refuse_spec rfl _

private theorem tuneOrSay_spec (early : s.setUp = false) (ports : List (String × Int)) :
    Follows s (tuneOrSay cfg ports) (fun _ u => u = s) := by
  unfold tuneOrSay
  split
  · refine safe_each (fun _ u => u = s) ?_ ports rfl
    intro u port rest same
    subst same
    exact follows_ask (by simp [Process.permitted,early]) (fun _ => rfl)
  · exact follows_ask rfl (fun _ => rfl)

private theorem mainSingle_spec (single : args.runMode = .SingleRecorder) :
    Follows .start (mainSingle build args cfg) (Ends (Wanted args cfg) []) := by
  refine safe_bind.mpr (follows_ask rfl (fun _ => ?_))
  refine safe_bind.mpr ((tuneOrSay_spec rfl _).mono ?_)
  rintro _ _ rfl
  exact safe_bind.mpr (follows_ask rfl (fun _ => runSingleRecorder_spec single))

private theorem mainRole_spec (several : args.runMode ≠ .SingleRecorder) :
    Follows .start (mainRole build args cfg) (Ends (Wanted args cfg) []) := by
  refine safe_bind.mpr (follows_ask rfl (fun _ => ?_))
  refine safe_bind.mpr ((tuneOrSay_spec rfl _).mono ?_)
  rintro _ _ rfl
  exact safe_bind.mpr (follows_ask rfl (fun _ => withTransport_spec
    (fun t sound named => runModes_spec sound named several)))

theorem Ends.mono {wider : Job → List (Slot × Port) → Prop} {live : List (Slot × Port)} {exit : Exit}
    (follows : ∀ job ports, want job ports → wider job ports) (ends : Ends want live exit s) : Ends wider live exit s := by
  cases exit with
  | ended => exact trivial
  | status code =>
    refine ends.imp_right (Or.imp_left ?_)
    rintro ⟨zero,job,ports,ran,wanted⟩
    exact ⟨zero,job,ports,ran,follows job ports wanted⟩

end Modes

/-- Every run of the process keeps the order. If it ends with a status, all its ports are gone;
the status is 0 if the loop its command line asks for has returned, on ports that were up, of
the transport and the interface its configuration names for the role, and 1 if none has. -/
theorem main_keeps_order (beyond : Int → Int) (build : Build) (argv0 : String) (argv : List String)
    {trace : List (Exchange Call Reply)} {exit : Exit} (ran : Runs (Dispatch.main beyond build argv0 argv) trace exit) :
    ∃ u, run watch .start trace = some u ∧ Ends (fun job ports => ∃ cfg,
      ⟨.loadConfig (parseCli beyond argv).configPath,.ok cfg⟩ ∈ trace ∧ Wanted (parseCli beyond argv) cfg job ports)
        [] exit u := by
  unfold Dispatch.main at ran
  split at ran
  · exact (refuse_spec rfl _).run ran (along_true _ _ _)
  dsimp only at ran
  split at ran
  · cases ran with
    | call reply rest =>
      cases reply with
      | error message =>
        have refused : Follows .start (refuse ("Config error: " ++ message)) (Ends (fun _ _ => False) []) :=
          refuse_spec rfl _
        obtain ⟨u,watched,ends⟩ := refused.run rest (along_true _ _ _)
        exact ⟨u,watched,ends.mono (fun _ _ impossible => impossible.elim)⟩
      | ok cfg =>
        have goes : Follows .start (if (parseCli beyond argv).runMode = .SingleRecorder then
            mainSingle build (parseCli beyond argv) cfg
            else mainRole build (parseCli beyond argv) cfg) (Ends (Wanted (parseCli beyond argv) cfg) []) := by
          split
          next single => exact mainSingle_spec single
          next several => exact mainRole_spec several
        obtain ⟨u,watched,ends⟩ := goes.run rest (along_true _ _ _)
        exact ⟨u,watched,ends.mono (fun job ports wanted => ⟨cfg,List.mem_cons_self,wanted⟩)⟩
  · exact (refuse_spec rfl _).run ran (along_true _ _ _)

section Lab

def labClient : RoleConfig := ⟨"dpdk","enp1s0f0","i40e",4,0,false,false,rfl⟩

def labServer : RoleConfig := ⟨"dpdk","enp1s0f1","i40e",5,0,false,false,rfl⟩

def labConfig : TestConfig := ⟨0x88B5,30,.Full,labServer,labClient,100,4096,64,false,false,2,3,4,10⟩

def labAnswers (_ : Unit) : (request : Call) → Reply request × Unit
  | .loadConfig _ => (.ok labConfig,())
  | .ensureHugepages _ | .construct _ _ | .boundToI40e _ | .setCoalescingZero _ | .prepare _ _ _ | .waitLink _ |
    .loop _ => (true,())
  | .resolveBdf _ => ("0000:01:00.0",())
  | .init _ _ => (some true,())
  | .print _ | .tune _ _ _ | .setup _ _ _ | .destroy _ | .reportItr _ _ _ | .i40eSetNoItr _ _ | .igcDisableEee _ _ |
    .knob _ _ =>
    ((),())

def labRun : List (Exchange Call Reply) × Exit :=
  exec labAnswers () (Dispatch.main id ⟨true,false,false,false⟩ "abtrda3" ["--single"])

theorem main_keeps_order_single : labRun.2 = .status 0 ∧ ∃ u job ports, run watch .start labRun.1 = some u ∧ u.live = [] ∧
    u.ran = [(job,ports)] ∧ ∃ cfg, Wanted (parseCli id ["--single"]) cfg job ports := by
  have ran : Runs (Dispatch.main id ⟨true,false,false,false⟩ "abtrda3" ["--single"]) labRun.1 labRun.2 :=
    runs_exec labAnswers () _
  have done : labRun.2 = .status 0 := by decide +kernel
  obtain ⟨u,watched,ends⟩ := main_keeps_order id ⟨true,false,false,false⟩ "abtrda3" ["--single"] ran
  rw [done] at ends
  obtain ⟨gone,⟨_,job,ports,returned,cfg,_,wanted⟩ | ⟨one,_⟩⟩ := ends
  · exact ⟨done,u,job,ports,watched,gone,returned,cfg,wanted⟩
  · cases one

end Lab

end Abtrda3.DispatchOrder
