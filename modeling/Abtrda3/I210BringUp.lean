import Abtrda3.I210Order

/-! `init` of the I210 driver keeps the order: the two rings, the check of what has been
configured, and what holds of the card when `init` has returned. -/
namespace Abtrda3.I210BringUp
open Abtrda3.I210 Abtrda3.I210Init Abtrda3.I210Order Abtrda3.Semantics.Interaction Abtrda3.Semantics.Interaction.Program

variable {p : Params} {mode : DriverMode} {allows : Setup → Exchange Call Reply → Prop} {s t u : Setup}

section Receive

def rxRegs : List Nat :=
  [Reg.rdbal0,Reg.rdbah0,Reg.rdlen0,Reg.srrctl0,Reg.rctl,Reg.rxdctl0,Reg.rdt0,Reg.dvmolr0]

def rxMemory (region : Region) : Prop := region = .rxRing ∨ region = .rxBuffer

theorem frame_rx {offset : Nat} (frame : Frame (· = offset) (fun _ => False) [] s t) (inside : offset ∈ rxRegs) :
    Frame (· ∈ rxRegs) rxMemory [] s t :=
  frame.mono (fun _ same => same ▸ inside) (fun _ => False.elim) (fun _ => id)

theorem writeReg_rxRing (offset : Nat) (mapped : s.bar = true) (idle : s.receiving = false)
    (listed : offset ∈ [Reg.rdbal0,Reg.rdbah0,Reg.rdlen0,Reg.srrctl0]) (value : BitVec 32) :
    Safe (watch p) allows s (writeReg offset value) (fun _ t => (t.bar = true ∧ t.receiving = false) ∧
      Frame (· = offset) (fun _ => False) [] s t ∧ t.reg offset = some value) := by
  have order : s.ordered p offset value = true := by
    simp only [List.mem_cons,List.not_mem_nil,or_false] at listed
    rcases listed with rfl | rfl | rfl | rfl
    all_goals
      rw [Setup.ordered,idle]
      rfl
  have apart : offset ≠ Reg.rctl ∧ offset ≠ Reg.ctrl := by
    simp only [List.mem_cons,List.not_mem_nil,or_false] at listed
    rcases listed with rfl | rfl | rfl | rfl <;> decide
  refine safe_writeReg mapped order apart.2 ⟨⟨mapped,?_⟩,frame_set s offset value,reg_set_self s offset value⟩
  exact ((frame_set s offset value).on (Ne.symm apart.1) _).trans idle

private theorem storeRing_spec (mapped : s.bar = true) (idle : s.receiving = false) :
    Safe (watch p) allows s (each (fun i => storeRx i (I210Receive.slotAddr p i) 0) (List.range p.numRxDesc))
      (fun _ t => (t.bar = true ∧ t.receiving = false ∧ t.held = s.held) ∧ Frame (· ∈ rxRegs) rxMemory [] s t ∧
        (List.range p.numRxDesc).all t.described = true) := by
  have start : ∃ described, s = {s with described := described} ∧
      ∀ i < p.numRxDesc, i ∈ List.range p.numRxDesc ∨ described i = true :=
    ⟨s.described,rfl,fun i inside => .inl (List.mem_range.mpr inside)⟩
  refine (safe_each (fun rest t => ∃ described, t = {s with described := described} ∧
    ∀ i < p.numRxDesc, i ∈ rest ∨ described i = true) ?_ _ start).mono ?_
  · rintro _ i rest ⟨described,rfl,left⟩
    refine safe_request rfl (fun _ _ => ⟨Function.update described i true,?_,?_⟩)
    · simp [Setup.effect]
    · intro j inside
      by_cases here : j = i
      · exact .inr (by rw [here,Function.update_self])
      · rw [Function.update_of_ne here]
        exact (left j inside).imp_left (fun listed => (List.mem_cons.mp listed).resolve_left here)
  · rintro _ _ ⟨described,rfl,all⟩
    refine ⟨⟨mapped,idle,rfl⟩,⟨rfl,fun _ _ => rfl,fun _ => id,fun _ => id,fun _ _ => rfl,
      fun outside => absurd (.inl rfl) outside,fun _ => .inl⟩,?_⟩
    rw [List.all_eq_true]
    intro i listed
    exact (all i (List.mem_range.mp listed)).resolve_left List.not_mem_nil

private theorem programRx_spec {base : BitVec 64} (mapped : s.bar = true) (idle : s.receiving = false)
    (ring : s.held .rxRing = some base) (buffer : (s.held .rxBuffer).isSome = true) :
    Safe (watch p) allows s (programRx p base) (fun _ t => t.bar = true ∧ Frame (· ∈ rxRegs) rxMemory [] s t ∧
      t.rxProgrammed p = true) := by
  refine safe_bind.mpr ((storeRing_spec mapped idle).mono ?_)
  rintro _ t0 ⟨⟨mapped,idle,memory⟩,frame0,all⟩
  refine safe_bind.mpr ((writeReg_rxRing Reg.rdbal0 mapped idle (by simp) _).mono ?_)
  rintro _ t1 ⟨⟨mapped,idle⟩,frame1,low⟩
  refine safe_bind.mpr ((writeReg_rxRing Reg.rdbah0 mapped idle (by simp) _).mono ?_)
  rintro _ t2 ⟨⟨mapped,idle⟩,frame2,high⟩
  refine safe_bind.mpr ((writeReg_rxRing Reg.rdlen0 mapped idle (by simp) _).mono ?_)
  rintro _ t3 ⟨⟨mapped,idle⟩,frame3,length⟩
  refine (writeReg_rxRing Reg.srrctl0 mapped idle (by simp) _).mono ?_
  rintro _ t4 ⟨⟨mapped,_⟩,frame4,srrctl⟩
  refine ⟨mapped,frame0.trans ((frame_rx frame1 (by simp [rxRegs])).trans ((frame_rx frame2 (by simp [rxRegs])).trans
    ((frame_rx frame3 (by simp [rxRegs])).trans (frame_rx frame4 (by simp [rxRegs]))))),?_⟩
  have held (region : Region) : t4.held region = s.held region := by
    rw [frame4.held _ id,frame3.held _ id,frame2.held _ id,frame1.held _ id,memory]
  have described : t4.described = t0.described := by
    rw [frame4.described id,frame3.described id,frame2.described id,frame1.described id]
  unfold Setup.rxProgrammed
  rw [held,held,described,ring,srrctl,frame4.reg Reg.rdlen0 (by decide),length,frame4.reg Reg.rdbah0 (by decide),
    frame3.reg Reg.rdbah0 (by decide),high,frame4.reg Reg.rdbal0 (by decide),frame3.reg Reg.rdbal0 (by decide),
    frame2.reg Reg.rdbal0 (by decide),low]
  simpa [buffer] using all

private theorem rctl_enables (p : Params) : (rctlRxen ||| rctlBam ||| rctlSecrc ||| rctlBsize p) &&& rctlRxen ≠ 0 := by
  unfold rctlBsize
  split
  · decide
  · split
    · decide
    · split <;> decide

private theorem enableRx_spec (mapped : s.bar = true) (programmed : s.rxProgrammed p = true) :
    Safe (watch p) allows s (enableRx p) (fun answer t => t.bar = true ∧ Frame (· ∈ rxRegs) rxMemory [] s t ∧
      (answer.isSome = true → RxUp p t ∧ t.on Reg.rxdctl0 rxdctlEnable = true)) := by
  have order : s.ordered p Reg.rctl (rctlRxen ||| rctlBam ||| rctlSecrc ||| rctlBsize p) = true := by
    rw [Setup.ordered,if_pos rfl,programmed,Bool.or_true]
  refine safe_bind.mpr (safe_writeReg mapped order (by decide) ?_)
  have frame0 := frame_set s Reg.rctl (rctlRxen ||| rctlBam ||| rctlSecrc ||| rctlBsize p)
  have receiving := on_of_reg (reg_set_self s Reg.rctl _) (rctl_enables p)
  refine safe_bind.mpr ((writeReg_plain (frame0.bar.trans mapped) rfl _).mono ?_)
  rintro _ t1 ⟨mapped,frame1,_⟩
  refine safe_bind.mpr (safe_writeReg mapped rfl (by decide) ?_)
  have frame2 := frame_set t1 Reg.rdt0 0
  refine safe_bind.mpr ((writeReg_plain (frame2.bar.trans mapped) rfl _).mono ?_)
  rintro _ t3 ⟨mapped,frame3,written⟩
  have frame : Frame (· ∈ rxRegs) rxMemory [] s t3 :=
    (frame_rx frame0 (by simp [rxRegs])).trans ((frame_rx frame1 (by simp [rxRegs])).trans
      ((frame_rx frame2 (by simp [rxRegs])).trans (frame_rx frame3 (by simp [rxRegs]))))
  have enabled : t3.on Reg.rxdctl0 rxdctlEnable = true := on_of_reg written (by decide)
  have up : t3.rxProgrammed p = true ∧ t3.receiving = true := by
    constructor
    · rw [frame3.rxProgrammed (by decide) (by simp),frame2.rxProgrammed (by decide) (by simp),
        frame1.rxProgrammed (by decide) (by simp),frame0.rxProgrammed (by decide) (by simp),programmed]
    · exact (frame3.on (by decide) _).trans ((frame2.on (by decide) _).trans ((frame1.on (by decide) _).trans receiving))
  refine (pollReg_spec (fun u => u.bar = true ∧ Frame (fun _ => False) (fun _ => False) [] t3 u)
    (fun u holds => holds.1) (fun u value holds => ⟨holds.1,holds.2.trans (frame_see u _ value)⟩)
    ⟨mapped,Frame.refl t3⟩).mono ?_
  rintro answer t ⟨⟨mapped,still⟩,ended⟩
  refine ⟨mapped,frame.trans (still.mono (fun _ => False.elim) (fun _ => False.elim) (fun _ => id)),fun found => ?_⟩
  obtain ⟨value,rfl⟩ := Option.isSome_iff_exists.mp found
  obtain ⟨test,u,⟨_,before⟩,rfl⟩ := ended value rfl
  have again : (u.see Reg.rxdctl0 value).on Reg.rxdctl0 rxdctlEnable = true := (still.on id _).trans enabled
  refine ⟨⟨(still.rxProgrammed (by simp) (by simp)).trans up.1,(still.on id _).trans up.2,?_⟩,again⟩
  have seen : u.on Reg.rxdctl0 rxdctlEnable = true := again
  simp only [decide_eq_true_eq] at test
  simp only [Setup.see,seen,test,ne_eq,not_false_eq_true,decide_true,Bool.and_true,Bool.or_true]

private theorem startRx_spec {rdt : BitVec 32} (mapped : s.bar = true) (up : RxUp p s) :
    Safe (watch p) allows s (startRx rdt) (fun _ t => t.bar = true ∧
      Frame (fun offset => offset = Reg.rdt0 ∨ offset = Reg.dvmolr0) (fun _ => False) [] s t ∧
      t.reg Reg.rdt0 = some rdt ∧ t.on Reg.dvmolr0 dvmolrStrcrc = true) := by
  have order : s.ordered p Reg.rdt0 rdt = true := by
    change (rdt = 0 || s.rxSeen) = true
    rw [up.seen,Bool.or_true]
  refine safe_bind.mpr (safe_writeReg mapped order (by decide) ?_)
  refine safe_bind.mpr (safe_readReg mapped (fun (dvmolr : BitVec 32) _ => ?_))
  refine safe_bind.mpr (safe_writeReg mapped (ordered_plain rfl _) (by decide) ?_)
  refine safe_request rfl (fun _ _ => ⟨mapped,?_,?_,?_⟩)
  · refine Frame.trans ((frame_set s Reg.rdt0 rdt).mono (fun _ => .inl) (fun _ => id) (fun _ => id)) ?_
    refine Frame.trans ((frame_see _ Reg.dvmolr0 dvmolr).mono (fun _ => False.elim) (fun _ => id) (fun _ => id)) ?_
    exact (frame_set _ Reg.dvmolr0 _).mono (fun _ => .inr) (fun _ => id) (fun _ => id)
  · exact ((frame_set _ Reg.dvmolr0 _).reg Reg.rdt0 (by decide)).trans (reg_set_self s Reg.rdt0 rdt)
  · exact on_of_reg (reg_set_self _ Reg.dvmolr0 _) (or_and_bit dvmolr (by decide))

structure RxReady (p : Params) (rx : I210Receive.State) (result : I210Receive.State) (t : Setup) : Prop where
  up : RxUp p t
  started : result = {rx with ring := I210Receive.initRing p rx.ring, rxTail := 0, rdt := BitVec.ofNat 32 (p.numRxDesc - 1)}
  tail : t.reg Reg.rdt0 = some result.rdt
  enabled : t.on Reg.rxdctl0 rxdctlEnable = true
  strips : t.on Reg.dvmolr0 dvmolrStrcrc = true

private theorem initRx_spec {rx : I210Receive.State} (mapped : s.bar = true) (idle : s.receiving = false)
    (noRing : s.held .rxRing = none) (noBuffer : s.held .rxBuffer = none) :
    Safe (watch p) allows s (initRx p rx) (fun result t => t.bar = true ∧ Frame (· ∈ rxRegs) rxMemory [] s t ∧
      (result.1 = true → RxReady p rx result.2 t)) := by
  refine safe_bind.mpr ((allocate_spec (· ∈ rxRegs) rxMemory .rxRing _ noRing (.inl rfl)).mono ?_)
  rintro base t1 ⟨⟨reg1,held1⟩,frame1⟩
  have mapped := frame1.bar.trans mapped
  cases base with
  | none => exact safe_bind.mpr (safe_request rfl (fun _ _ => ⟨mapped,frame1,by simp⟩))
  | some base =>
    refine safe_bind.mpr ((allocate_spec (· ∈ rxRegs) rxMemory .rxBuffer
        _ (by rw [held1]; exact noBuffer) (.inr rfl)).mono ?_)
    rintro buffer t2 ⟨⟨reg2,held2⟩,frame2⟩
    have mapped := frame2.bar.trans mapped
    cases buffer with
    | none => exact safe_bind.mpr (safe_request rfl (fun _ _ => ⟨mapped,frame1.trans frame2,by simp⟩))
    | some buffer =>
      have idle : t2.receiving = false := by
        unfold Setup.receiving Setup.on
        rw [reg2,reg1]
        exact idle
      refine safe_bind.mpr ((programRx_spec mapped idle (by rw [held2,held1]; rfl) (by rw [held2]; rfl)).mono ?_)
      rintro _ t3 ⟨mapped,frame3,programmed⟩
      refine safe_bind.mpr ((enableRx_spec mapped programmed).mono ?_)
      rintro answer t4 ⟨mapped,frame4,enabled⟩
      have frame := frame1.trans (frame2.trans (frame3.trans frame4))
      cases answer with
      | none =>
        refine safe_bind.mpr (safe_readReg mapped (fun value _ => ?_))
        refine safe_bind.mpr (safe_request rfl (fun _ _ => ⟨mapped,frame.trans ?_,by simp⟩))
        exact (frame_see t4 _ value).mono (fun _ => False.elim) (fun _ => False.elim) (fun _ => id)
      | some value =>
        obtain ⟨up,on⟩ := enabled rfl
        refine safe_bind.mpr ((startRx_spec mapped up).mono ?_)
        rintro _ t5 ⟨mapped,frame5,tail,strips⟩
        refine ⟨mapped,frame.trans (frame5.mono ?_ (fun _ => False.elim) (fun _ => id)),fun _ => ⟨?_,rfl,tail,?_,strips⟩⟩
        · rintro offset (rfl | rfl) <;> simp [rxRegs]
        · exact up.frame frame5 (by decide) (fun _ _ => id)
        · exact (frame5.on (by decide) _).trans on

end Receive

section Transmit

def txRegs : List Nat :=
  [Reg.tdbal0,Reg.tdbah0,Reg.tdlen0,Reg.txdctl0,Reg.tipg,Reg.tctl]

def txMemory (region : Region) : Prop := region = .txRing ∨ region = .txBuffer

theorem frame_tx {offset : Nat} (frame : Frame (· = offset) (fun _ => False) [] s t) (inside : offset ∈ txRegs) :
    Frame (· ∈ txRegs) txMemory [] s t :=
  frame.mono (fun _ same => same ▸ inside) (fun _ => False.elim) (fun _ => id)

theorem writeReg_txRing (offset : Nat) (mapped : s.bar = true) (idle : s.transmitting = false)
    (listed : offset ∈ [Reg.tdbal0,Reg.tdbah0,Reg.tdlen0]) (value : BitVec 32) :
    Safe (watch p) allows s (writeReg offset value) (fun _ t => (t.bar = true ∧ t.transmitting = false) ∧
      Frame (· = offset) (fun _ => False) [] s t ∧ t.reg offset = some value) := by
  have order : s.ordered p offset value = true := by
    simp only [List.mem_cons,List.not_mem_nil,or_false] at listed
    rcases listed with rfl | rfl | rfl
    all_goals
      rw [Setup.ordered,idle]
      rfl
  have apart : offset ≠ Reg.tctl ∧ offset ≠ Reg.ctrl := by
    simp only [List.mem_cons,List.not_mem_nil,or_false] at listed
    rcases listed with rfl | rfl | rfl <;> decide
  refine safe_writeReg mapped order apart.2 ⟨⟨mapped,?_⟩,frame_set s offset value,reg_set_self s offset value⟩
  exact ((frame_set s offset value).on (Ne.symm apart.1) _).trans idle

private theorem programTx_spec {base : BitVec 64} (mapped : s.bar = true) (idle : s.transmitting = false)
    (ring : s.held .txRing = some base) (buffer : (s.held .txBuffer).isSome = true) :
    Safe (watch p) allows s (programTx p base) (fun _ t => t.bar = true ∧ Frame (· ∈ txRegs) txMemory [] s t ∧
      t.txProgrammed p = true) := by
  refine safe_bind.mpr ((writeReg_txRing Reg.tdbal0 mapped idle (by simp) _).mono ?_)
  rintro _ t1 ⟨⟨mapped,idle⟩,frame1,low⟩
  refine safe_bind.mpr ((writeReg_txRing Reg.tdbah0 mapped idle (by simp) _).mono ?_)
  rintro _ t2 ⟨⟨mapped,idle⟩,frame2,high⟩
  refine (writeReg_txRing Reg.tdlen0 mapped idle (by simp) _).mono ?_
  rintro _ t3 ⟨⟨mapped,_⟩,frame3,length⟩
  refine ⟨mapped,(frame_tx frame1 (by simp [txRegs])).trans ((frame_tx frame2 (by simp [txRegs])).trans
    (frame_tx frame3 (by simp [txRegs]))),?_⟩
  have held (region : Region) : t3.held region = s.held region := by
    rw [frame3.held _ id,frame2.held _ id,frame1.held _ id]
  unfold Setup.txProgrammed
  rw [held,held,ring,length,frame3.reg Reg.tdbah0 (by decide),high,frame3.reg Reg.tdbal0 (by decide),
    frame2.reg Reg.tdbal0 (by decide),low]
  simp [buffer]

private theorem enableTx_spec (mapped : s.bar = true) (programmed : s.txProgrammed p = true) :
    Safe (watch p) allows s enableTx (fun answer t => t.bar = true ∧ Frame (· ∈ txRegs) txMemory [] s t ∧
      t.txProgrammed p = true ∧ (answer.isSome = true → t.txSeen = true ∧ t.on Reg.txdctl0 txdctlEnable = true)) := by
  refine safe_bind.mpr ((writeReg_plain mapped rfl _).mono ?_)
  rintro _ t1 ⟨mapped,frame1,_⟩
  refine safe_bind.mpr (safe_readReg mapped (fun (txdctl : BitVec 32) _ => ?_))
  have frame2 := frame_see t1 Reg.txdctl0 txdctl
  refine safe_bind.mpr ((writeReg_plain (frame2.bar.trans mapped) rfl _).mono ?_)
  rintro _ t3 ⟨mapped,frame3,written⟩
  have frame : Frame (· ∈ txRegs) txMemory [] s t3 :=
    (frame_tx frame1 (by simp [txRegs])).trans ((frame2.mono (fun _ => False.elim) (fun _ => False.elim)
      (fun _ => id)).trans
      (frame_tx frame3 (by simp [txRegs])))
  have enabled : t3.on Reg.txdctl0 txdctlEnable = true := on_of_reg written (or_and_bit txdctl (by decide))
  have programmed : t3.txProgrammed p = true := by
    rw [frame3.txProgrammed (by decide) (by simp),frame2.txProgrammed (by simp) (by simp),
      frame1.txProgrammed (by decide) (by simp),programmed]
  refine (pollReg_spec (fun u => u.bar = true ∧ Frame (fun _ => False) (fun _ => False) [] t3 u)
    (fun u holds => holds.1) (fun u value holds => ⟨holds.1,holds.2.trans (frame_see u _ value)⟩)
    ⟨mapped,Frame.refl t3⟩).mono ?_
  rintro answer t ⟨⟨mapped,still⟩,ended⟩
  refine ⟨mapped,frame.trans (still.mono (fun _ => False.elim) (fun _ => False.elim) (fun _ => id)),
    (still.txProgrammed (by simp) (by simp)).trans programmed,fun found => ?_⟩
  obtain ⟨value,rfl⟩ := Option.isSome_iff_exists.mp found
  obtain ⟨test,u,⟨_,before⟩,rfl⟩ := ended value rfl
  have again : (u.see Reg.txdctl0 value).on Reg.txdctl0 txdctlEnable = true := (still.on id _).trans enabled
  refine ⟨?_,again⟩
  have seen : u.on Reg.txdctl0 txdctlEnable = true := again
  simp only [decide_eq_true_eq] at test
  simp only [Setup.see,seen,test,ne_eq,not_false_eq_true,decide_true,Bool.and_true,Bool.or_true]

private theorem startTx_spec (mapped : s.bar = true) (programmed : s.txProgrammed p = true) (seen : s.txSeen = true) :
    Safe (watch p) allows s startTx (fun _ t => t.bar = true ∧
      Frame (fun offset => offset = Reg.tipg ∨ offset = Reg.tctl) (fun _ => False) [] s t ∧ TxUp p t) := by
  refine safe_bind.mpr ((writeReg_plain mapped rfl _).mono ?_)
  rintro _ t1 ⟨mapped,frame1,_⟩
  have programmed : t1.txProgrammed p = true := (frame1.txProgrammed (by decide) (by simp)).trans programmed
  have seen := frame1.txSeen (by decide) seen
  have order : t1.ordered p Reg.tctl (tctlEn ||| tctlPsp ||| tctlCtIeee ||| tctlBstDef ||| tctlRtlc) = true := by
    rw [Setup.ordered,if_neg (by decide),if_pos rfl,programmed,seen]
    rfl
  refine safe_bind.mpr (safe_writeReg mapped order (by decide) ?_)
  have frame2 := frame_set t1 Reg.tctl (tctlEn ||| tctlPsp ||| tctlCtIeee ||| tctlBstDef ||| tctlRtlc)
  refine safe_request rfl (fun _ _ => ⟨mapped,?_,?_,?_,frame2.txSeen (by decide) seen⟩)
  · exact (frame1.mono (fun _ => .inl) (fun _ => id) (fun _ => id)).trans
      (frame2.mono (fun _ => .inr) (fun _ => id) (fun _ => id))
  · exact (frame2.txProgrammed (by decide) (by simp)).trans programmed
  · exact on_of_reg (reg_set_self t1 Reg.tctl _) (by decide)

structure TxReady (p : Params) (tx : I210Transmit.State) (result : I210Transmit.State) (t : Setup) : Prop where
  up : TxUp p t
  started : result = {tx with txTail := 0, txCleanHead := 0, txInFlight := 0}
  enabled : t.on Reg.txdctl0 txdctlEnable = true

private theorem initTx_spec {tx : I210Transmit.State} (mapped : s.bar = true) (idle : s.transmitting = false)
    (noRing : s.held .txRing = none) (noBuffer : s.held .txBuffer = none) :
    Safe (watch p) allows s (initTx p tx) (fun result t => t.bar = true ∧ Frame (· ∈ txRegs) txMemory [] s t ∧
      (result.1 = true → TxReady p tx result.2 t)) := by
  refine safe_bind.mpr ((allocate_spec (· ∈ txRegs) txMemory .txRing _ noRing (.inl rfl)).mono ?_)
  rintro base t1 ⟨⟨reg1,held1⟩,frame1⟩
  have mapped := frame1.bar.trans mapped
  cases base with
  | none => exact safe_bind.mpr (safe_request rfl (fun _ _ => ⟨mapped,frame1,by simp⟩))
  | some base =>
    refine safe_bind.mpr ((allocate_spec (· ∈ txRegs) txMemory .txBuffer
        _ (by rw [held1]; exact noBuffer) (.inr rfl)).mono ?_)
    rintro buffer t2 ⟨⟨reg2,held2⟩,frame2⟩
    have mapped := frame2.bar.trans mapped
    cases buffer with
    | none => exact safe_bind.mpr (safe_request rfl (fun _ _ => ⟨mapped,frame1.trans frame2,by simp⟩))
    | some buffer =>
      have idle : t2.transmitting = false := by
        unfold Setup.transmitting Setup.on
        rw [reg2,reg1]
        exact idle
      refine safe_bind.mpr ((programTx_spec mapped idle (by rw [held2,held1]; rfl) (by rw [held2]; rfl)).mono ?_)
      rintro _ t3 ⟨mapped,frame3,programmed⟩
      refine safe_bind.mpr ((enableTx_spec mapped programmed).mono ?_)
      rintro answer t4 ⟨mapped,frame4,programmed,enabled⟩
      have frame := frame1.trans (frame2.trans (frame3.trans frame4))
      cases answer with
      | none => exact safe_bind.mpr (safe_request rfl (fun _ _ => ⟨mapped,frame,by simp⟩))
      | some value =>
        obtain ⟨seen,on⟩ := enabled rfl
        refine safe_bind.mpr ((startTx_spec mapped programmed seen).mono ?_)
        rintro _ t5 ⟨mapped,frame5,up⟩
        refine ⟨mapped,frame.trans (frame5.mono ?_ (fun _ => False.elim) (fun _ => id)),fun _ => ⟨up,rfl,?_⟩⟩
        · rintro offset (rfl | rfl) <;> simp [txRegs]
        · exact (frame5.on (by decide) _).trans on

end Transmit

section Verify

variable {β : Type} {names : List Checked}

/-- Between its first and its last read the check writes MDIC only. -/
def Verifying (names : List Checked) (s t : Setup) : Prop := t.bar = true ∧ Frame (· = Reg.mdic) (fun _ => False) names s t

def Answers (allows : Setup → Exchange Call Reply → Prop) (names : List Checked) (s : Setup) (offset : Nat)
    (value : BitVec 32) : Prop := ∃ t, Verifying names s t ∧ allows t ⟨.readReg offset,value⟩

structure Passes (names : List Checked) (answers : Nat → BitVec 32 → Prop) : Prop where
  eeer : ∀ value, answers Reg.eeer value → value &&& 0x00070000 ≠ 0 → .eeer ∈ names
  ipcnfg : ∀ value, answers Reg.ipcnfg value → value &&& 0x0000000C ≠ 0 → .ipcnfg ∈ names
  phyEee : .phyEee ∈ names
  dmacr : ∀ value, answers Reg.dmacr value → value &&& 0x80000000 ≠ 0 → .dmacr ∈ names
  pciemisc : ∀ value, answers Reg.pciemisc value → value &&& 0x00000080 ≠ 0 → .pciemisc ∈ names
  phypden : ∀ value, answers Reg.ctrlExt value → value &&& 0x00100000 ≠ 0 → .ctrlExt ∈ names
  phyPwrMgmt : ∀ value, answers Reg.ctrlExt value → value &&& 0x00200000 ≠ 0 → .ctrlExt ∈ names
  tqavctrl : .tqavctrl ∈ names
  rfce : ∀ value, answers Reg.ctrl value → value &&& ctrlRfce ≠ 0 → .ctrl ∈ names
  tfce : ∀ value, answers Reg.ctrl value → value &&& ctrlTfce ≠ 0 → .ctrl ∈ names
  eitr : ∀ value, answers Reg.eitr0 value → value ≠ 0xFFFF ∧ value ≠ 0xFFFC → .eitr0 ∈ names
  dvmolr : ∀ value, answers Reg.dvmolr0 value → value &&& 0x80000000 = 0 → .dvmolr0 ∈ names
  rxdctl : ∀ value, answers Reg.rxdctl0 value → value &&& rxdctlEnable = 0 → .rxdctl0 ∈ names
  txdctl : ∀ value, answers Reg.txdctl0 value → value &&& txdctlEnable = 0 → .txdctl0 ∈ names

variable {post : β → Setup → Prop}

theorem look_spec {offset : Nat} {f : BitVec 32 → Driver β} (holds : Verifying names s t)
    (after : ∀ value, Answers allows names s offset value → ∀ u, Verifying names s u →
      Safe (watch p) allows u (f value) post) :
    Safe (watch p) allows t ((readReg offset).bind f) post := by
  refine safe_bind.mpr (safe_readReg holds.1 (fun value allowed => ?_))
  refine after value ⟨t,holds,allowed⟩ _ ⟨holds.1,holds.2.trans ?_⟩
  exact (frame_see t offset value).mono (fun _ => False.elim) (fun _ => id) (by simp)

theorem warnIf_spec {bad : Bool} {what : Checked} {value : BitVec 32} {expected : Expected} {warnings : Nat}
    {f : Nat → Driver β} (holds : Verifying names s t) (may : bad = true → what ∈ names)
    (after : ∀ count u, Verifying names s u → Safe (watch p) allows u (f count) post) :
    Safe (watch p) allows t ((warnIf bad what value expected warnings).bind f) post := by
  cases bad with
  | false => exact after warnings t holds
  | true =>
    refine safe_bind.mpr (safe_bind.mpr (safe_request rfl (fun _ _ => after (warnings + 1) _ ⟨holds.1,?_⟩)))
    have frame := holds.2
    refine ⟨frame.bar,frame.reg,frame.rxSeen,frame.txSeen,frame.held,frame.described,fun other said => ?_⟩
    rcases List.mem_append.mp said with before | last
    · exact frame.warned other before
    · rw [List.mem_singleton.mp last]
      exact .inr (may rfl)

theorem clear_spec {what : Checked} {value mask : BitVec 32} {warnings : Nat} {f : Nat → Driver β}
    (holds : Verifying names s t) (may : value &&& mask ≠ 0 → what ∈ names)
    (after : ∀ count u, Verifying names s u → Safe (watch p) allows u (f count) post) :
    Safe (watch p) allows t ((check what value mask true warnings).bind f) post :=
  warnIf_spec holds (fun bad => may (by simpa using bad)) after

theorem set_spec {what : Checked} {value mask : BitVec 32} {warnings : Nat} {f : Nat → Driver β}
    (holds : Verifying names s t) (may : value &&& mask = 0 → what ∈ names)
    (after : ∀ count u, Verifying names s u → Safe (watch p) allows u (f count) post) :
    Safe (watch p) allows t ((check what value mask false warnings).bind f) post :=
  warnIf_spec holds (fun bad => may (by simpa using bad)) after

private theorem quiet_readEeeAdvertisement : Quiet p allows (· = Reg.mdic) readEeeAdvertisement := by
  have write (reg : BitVec 32) (value : BitVec 16) : Quiet p allows (· = Reg.mdic) (writePhy reg value) :=
    quiet_writePhy reg value rfl
  have read (reg : BitVec 32) : Quiet p allows (· = Reg.mdic) (readPhy reg) := quiet_readPhy reg rfl
  refine (write _ _).bind (fun _ => ?_)
  refine (write _ _).bind (fun _ => ?_)
  refine (write _ _).bind (fun _ => ?_)
  refine (read _).bind (fun _ => ?_)
  exact (write _ _).bind (fun _ => quiet_done _)

private theorem verify_spec (mapped : s.bar = true) (passes : Passes names (Answers allows names s)) :
    Safe (watch p) allows s verifyLowLatencyConfig (fun _ t => Verifying names s t) := by
  have holds : Verifying names s s := ⟨mapped,Frame.refl s⟩
  refine look_spec holds (fun eeer readEeer u holds => ?_)
  refine look_spec holds (fun ipcnfg readIpcnfg u holds => ?_)
  refine look_spec holds (fun dmacr readDmacr u holds => ?_)
  refine look_spec holds (fun pciemisc readPciemisc u holds => ?_)
  refine look_spec holds (fun ctrlExt readCtrlExt u holds => ?_)
  refine look_spec holds (fun tqavctrl _ u holds => ?_)
  refine look_spec holds (fun rxdctl readRxdctl u holds => ?_)
  refine look_spec holds (fun txdctl readTxdctl u holds => ?_)
  refine look_spec holds (fun eitr readEitr u holds => ?_)
  refine clear_spec holds (passes.eeer eeer readEeer) (fun count u holds => ?_)
  refine clear_spec holds (passes.ipcnfg ipcnfg readIpcnfg) (fun count u holds => ?_)
  refine quiet_readEeeAdvertisement.then holds.1 (fun eeeAdv v mapped frame => ?_)
  have holds : Verifying names s v := ⟨mapped,holds.2.trans (frame.mono (fun _ => id) (fun _ => id) (by simp))⟩
  refine warnIf_spec holds (fun _ => passes.phyEee) (fun count u holds => ?_)
  refine clear_spec holds (passes.dmacr dmacr readDmacr) (fun count u holds => ?_)
  refine clear_spec holds (passes.pciemisc pciemisc readPciemisc) (fun count u holds => ?_)
  refine clear_spec holds (passes.phypden ctrlExt readCtrlExt) (fun count u holds => ?_)
  refine clear_spec holds (passes.phyPwrMgmt ctrlExt readCtrlExt) (fun count u holds => ?_)
  refine clear_spec holds (fun _ => passes.tqavctrl) (fun count u holds => ?_)
  refine look_spec holds (fun ctrl readCtrl u holds => ?_)
  refine clear_spec holds (passes.rfce ctrl readCtrl) (fun count u holds => ?_)
  refine clear_spec holds (passes.tfce ctrl readCtrl) (fun count u holds => ?_)
  refine warnIf_spec holds (fun bad => passes.eitr eitr readEitr (by simpa using bad)) (fun count u holds => ?_)
  refine look_spec holds (fun dvmolr readDvmolr u holds => ?_)
  refine set_spec holds (passes.dvmolr dvmolr readDvmolr) (fun count u holds => ?_)
  refine set_spec holds (passes.rxdctl rxdctl readRxdctl) (fun count u holds => ?_)
  refine set_spec holds (passes.txdctl txdctl readTxdctl) (fun count u holds => ?_)
  have last : Quiet p allows (· = Reg.mdic) (print (if count = 0 then .verified else .warnings count)) := by
    refine quiet_print ?_
    split <;> simp
  refine (last u holds.1).mono (fun _ v after => ⟨after.1,
      holds.2.trans (after.2.mono (fun _ => id) (fun _ => id) (by simp))⟩)

end Verify

structure Fresh (s : Setup) : Prop where
  mapped : s.bar = true
  rctl : s.reg Reg.rctl = none
  tctl : s.reg Reg.tctl = none
  tdt : s.reg Reg.tdt0 = none
  held : ∀ region, s.held region = none
  warned : s.warned = []

theorem Fresh.frame {regs : Nat → Prop} (fresh : Fresh s) (frame : Frame regs (fun _ => False) [] s t)
    (outside : ∀ offset ∈ [Reg.rctl,Reg.tctl,Reg.tdt0], ¬ regs offset) : Fresh t where
  mapped := frame.bar.trans fresh.mapped
  rctl := (frame.reg _ (outside _ (by simp))).trans fresh.rctl
  tctl := (frame.reg _ (outside _ (by simp))).trans fresh.tctl
  tdt := (frame.reg _ (outside _ (by simp))).trans fresh.tdt
  held region := (frame.held region id).trans (fresh.held region)
  warned := frame.silent fresh.warned

theorem Fresh.forget (fresh : Fresh s) : Fresh s.forget := ⟨fresh.mapped,rfl,rfl,rfl,fresh.held,fresh.warned⟩

theorem Fresh.idle (fresh : Fresh s) : s.receiving = false ∧ s.transmitting = false := by
  unfold Setup.receiving Setup.transmitting Setup.on
  rw [fresh.rctl,fresh.tctl]
  exact ⟨rfl,rfl⟩

/-- All that the check at the end of `init` looks at and that the driver has written. -/
structure Configured (mode : DriverMode) (s : Setup) : Prop where
  eitr : s.reg Reg.eitr0 = some 0xFFFF
  power : PowerOff s
  ctrl : Cleared s Reg.ctrl (ctrlRfce ||| ctrlTfce)
  rx : mode.hasRx = true → s.on Reg.rxdctl0 rxdctlEnable = true ∧ s.on Reg.dvmolr0 dvmolrStrcrc = true
  tx : mode.hasTx = true → s.on Reg.txdctl0 txdctlEnable = true

structure Brought (p : Params) (mode : DriverMode) (names : List Checked) (object : Object) (result : Bool × Object)
    (t : Setup) : Prop where
  opened : result.2.opened = t.bar
  unmapped : t.bar = false → t.receiving = false ∧ t.transmitting = false
  noRx : mode.hasRx = false → t.receiving = false
  noTx : mode.hasTx = false → t.transmitting = false
  mapped : result.1 = true → t.bar = true
  rx : result.1 = true → mode.hasRx = true → RxUp p t ∧ t.reg Reg.rdt0 = some result.2.rx.rdt ∧
    result.2.rx = {object.rx with
      ring := I210Receive.initRing p object.rx.ring, rxTail := 0, rdt := BitVec.ofNat 32 (p.numRxDesc - 1)}
  tx : result.1 = true → mode.hasTx = true → TxUp p t ∧ t.reg Reg.tdt0 = none ∧
    result.2.tx = {object.tx with txTail := 0, txCleanHead := 0, txInFlight := 0}
  warned : ∀ what ∈ t.warned, what ∈ names

/-- While `init` gives up, a direction may be left running; its memory stays until the
destructor. -/
theorem Brought.failed {names : List Checked} {object left : Object} (opened : left.opened = true) (mapped : t.bar = true)
    (noRx : mode.hasRx = false → t.receiving = false) (noTx : mode.hasTx = false → t.transmitting = false)
    (silent : t.warned = []) : Brought p mode names object (false,left) t :=
  ⟨opened.trans mapped.symm,fun none => by simp [mapped] at none,noRx,noTx,by simp,by simp,by simp,by simp [silent]⟩

def ringRegs : List Nat := rxRegs ++ txRegs

theorem RxReady.frame {regs : Nat → Prop} {memory : Region → Prop} {names : List Checked} {rx result : I210Receive.State}
    (ready : RxReady p rx result s) (frame : Frame regs memory names s t) (outside : ∀ offset ∈ rxRegs, ¬ regs offset)
    (kept : ∀ region, rxMemory region → ¬ memory region) : RxReady p rx result t where
  up := by
    refine ready.up.frame frame (fun offset listed => outside offset ?_) (fun region listed => kept region ?_)
    · exact List.mem_append_left [Reg.rdt0,Reg.dvmolr0] listed
    · simpa [rxMemory] using listed
  started := ready.started
  tail := (frame.reg _ (outside _ (by simp [rxRegs]))).trans ready.tail
  enabled := (frame.on (outside _ (by simp [rxRegs])) _).trans ready.enabled
  strips := (frame.on (outside _ (by simp [rxRegs])) _).trans ready.strips

structure Ringed (p : Params) (mode : DriverMode) (object : Object) (s : Setup) (result : Bool × Object)
    (t : Setup) : Prop where
  mapped : t.bar = true
  frame : Frame (· ∈ ringRegs) (fun _ => True) [] s t
  opened : result.2.opened = object.opened
  noRx : mode.hasRx = false → t.receiving = false
  noTx : mode.hasTx = false → t.transmitting = false
  rx : result.1 = true → mode.hasRx = true → RxReady p object.rx result.2.rx t
  tx : result.1 = true → mode.hasTx = true → TxReady p object.tx result.2.tx t

private theorem initRings_spec {object : Object} (fresh : Fresh s) :
    Safe (watch p) allows s (initRings p mode object) (Ringed p mode object s) := by
  have received : Safe (watch p) allows s (given mode.hasRx (initRx p object.rx) (true,object.rx)) (fun result t =>
      t.bar = true ∧ Frame (· ∈ rxRegs) rxMemory [] s t ∧ (mode.hasRx = false → t.receiving = false) ∧
      (result.1 = true → mode.hasRx = true → RxReady p object.rx result.2 t)) := by
    refine safe_given (fun has => ?_) (fun lacks => ?_)
    · refine (initRx_spec fresh.mapped fresh.idle.1 (fresh.held _) (fresh.held _)).mono ?_
      rintro result t ⟨mapped,frame,ready⟩
      exact ⟨mapped,frame,by simp [has],fun ok _ => ready ok⟩
    · exact ⟨fresh.mapped,Frame.refl s,fun _ => fresh.idle.1,by simp [lacks]⟩
  refine safe_bind.mpr (received.mono ?_)
  rintro ⟨ok,rx⟩ t1 ⟨mapped,frame1,noRx,readyRx⟩
  have idle : t1.transmitting = false := (frame1.on (by decide) _).trans fresh.idle.2
  have wide : Frame (· ∈ ringRegs) (fun _ => True) [] s t1 :=
      frame1.mono (fun _ => List.mem_append_left _) (fun _ _ => trivial) (fun _ => id)
  cases ok with
  | false => exact ⟨mapped,wide,rfl,noRx,fun _ => idle,by simp,by simp⟩
  | true =>
    have sent : Safe (watch p) allows t1 (given mode.hasTx (initTx p object.tx) (true,object.tx)) (fun result t =>
        t.bar = true ∧ Frame (· ∈ txRegs) txMemory [] t1 t ∧ (mode.hasTx = false → t.transmitting = false) ∧
        (result.1 = true → mode.hasTx = true → TxReady p object.tx result.2 t)) := by
      refine safe_given (fun has => ?_) (fun lacks => ?_)
      · have empty (region : Region) (outside : ¬ rxMemory region) : t1.held region = none :=
          (frame1.held region outside).trans (fresh.held region)
        refine (initTx_spec mapped idle (empty _ (by simp [rxMemory])) (empty _ (by simp [rxMemory]))).mono ?_
        rintro result t ⟨mapped,frame,ready⟩
        exact ⟨mapped,frame,by simp [has],fun ok _ => ready ok⟩
      · exact ⟨mapped,Frame.refl t1,fun _ => idle,by simp [lacks]⟩
    refine safe_bind.mpr (sent.mono ?_)
    rintro ⟨done,tx⟩ t2 ⟨mapped,frame2,noTx,readyTx⟩
    refine ⟨mapped,wide.trans (frame2.mono (fun _ => List.mem_append_right _) (fun _ _ => trivial) (fun _ => id)),rfl,
        fun lacks => ?_,noTx,
      fun _ has => ?_,readyTx⟩
    · exact (frame2.on (by decide) _).trans (noRx lacks)
    · refine (readyRx rfl has).frame frame2 (by decide) ?_
      rintro region (rfl | rfl) <;> simp [txMemory]

theorem Ringed.configured {object : Object} {result : Bool × Object} (ringed : Ringed p mode object s result t)
    (ok : result.1 = true) (eitr : s.reg Reg.eitr0 = some 0xFFFF) (power : PowerOff s)
    (ctrl : Cleared s Reg.ctrl (ctrlRfce ||| ctrlTfce)) : Configured mode t where
  eitr := (ringed.frame.reg _ (by decide)).trans eitr
  power := power.frame ringed.frame (by decide)
  ctrl := ringed.frame.cleared (by decide) ctrl
  rx has := ⟨(ringed.rx ok has).enabled,(ringed.rx ok has).strips⟩
  tx has := (ringed.tx ok has).enabled

theorem Configured.frame {names : List Checked} (configured : Configured mode s)
    (frame : Frame (fun _ => False) (fun _ => False) names s t) : Configured mode t where
  eitr := (frame.reg _ id).trans configured.eitr
  power := configured.power.frame frame (fun _ _ => id)
  ctrl := frame.cleared id configured.ctrl
  rx has := ⟨(frame.on id _).trans (configured.rx has).1,(frame.on id _).trans (configured.rx has).2⟩
  tx has := (frame.on id _).trans (configured.tx has)

variable {names : List Checked} {object : Object}

private theorem finish_spec {result : Bool × Object} (ok : result.1 = true) (fresh : Fresh s)
    (ringed : Ringed p mode object s result t)
    (opened : object.opened = true) (passes : ∀ u, u.bar = true → Frame (fun _ => False) (fun _ => False) [] t u →
      Passes names (Answers allows names u)) :
    Safe (watch p) allows t (waitLink.bind fun _ => verifyLowLatencyConfig.bind fun _ => .done (true,result.2))
      (Brought p mode names object) := by
  have wait : Quiet p allows (fun _ => False) waitLink := quiet_waitLink
  refine wait.then ringed.mapped (fun _ t4 mapped frame4 => ?_)
  refine safe_bind.mpr ((verify_spec mapped (passes t4 mapped frame4)).mono ?_)
  rintro _ t5 ⟨mapped,frame5⟩
  have frame : Frame (· = Reg.mdic) (fun _ => False) names t t5 :=
    (frame4.mono (fun _ => False.elim) (fun _ => id) (by simp)).trans frame5
  refine ⟨ringed.opened.trans (opened.trans mapped.symm),fun none => by simp [mapped] at none,fun lacks => ?_,
    fun lacks => ?_,fun _ => mapped,fun _ has => ?_,fun _ has => ?_,fun what said => ?_⟩
  · exact (frame.on (by decide) _).trans (ringed.noRx lacks)
  · exact (frame.on (by decide) _).trans (ringed.noTx lacks)
  · have ready := ringed.rx ok has
    exact ⟨ready.up.frame frame (by decide) (fun _ _ => id),(frame.reg _ (by decide)).trans ready.tail,ready.started⟩
  · have ready := ringed.tx ok has
    refine ⟨ready.up.frame frame (by decide) (fun _ _ => id),?_,ready.started⟩
    rw [frame.reg _ (by decide),ringed.frame.reg _ (by decide),fresh.tdt]
  · rcases frame.warned what said with before | listed
    · rw [ringed.frame.silent fresh.warned] at before
      cases before
    · exact listed

theorem bringUp_spec (fresh : Fresh s) (opened : object.opened = true) (eitr : s.reg Reg.eitr0 = some 0xFFFF)
    (power : PowerOff s)
    (verifies : ∀ u, u.bar = true → (Steady allows → Configured mode u) → Passes names (Answers allows names u)) :
    Safe (watch p) allows s (bringUp p mode object) (Brought p mode names object) := by
  have phy : Quiet p allows (· = Reg.mdic) initPhy := quiet_initPhy rfl
  refine phy.then fresh.mapped (fun ok t1 mapped frame1 => ?_)
  have fresh1 : Fresh t1 := fresh.frame frame1 (by decide)
  cases ok with
  | false => exact Brought.failed opened mapped (fun _ => fresh1.idle.1) (fun _ => fresh1.idle.2) fresh1.warned
  | true =>
    refine safe_bind.mpr ((setLinkUp_spec mapped).mono ?_)
    rintro _ t2 ⟨mapped,linked⟩
    have fresh2 : Fresh t2 := by
      rcases linked with ⟨restarted,_⟩ | ⟨frame2,_⟩
      · exact fresh1.forget.frame restarted (fun _ _ => id)
      · exact fresh1.frame frame2 (by decide)
    refine safe_bind.mpr ((initRings_spec fresh2).mono ?_)
    rintro ⟨ok,left⟩ t3 ringed
    cases ok with
    | false =>
      exact Brought.failed (ringed.opened.trans opened) ringed.mapped ringed.noRx
        ringed.noTx (ringed.frame.silent fresh2.warned)
    | true =>
      refine finish_spec rfl fresh2 ringed opened (fun u mapped still => verifies u mapped (fun steady => ?_))
      rcases linked with ⟨_,unsteady⟩ | ⟨frame2,ctrl⟩
      · exact absurd steady unsteady
      · refine (ringed.configured rfl ?_ ?_ ctrl).frame still
        · exact (frame2.reg _ (by decide)).trans ((frame1.reg _ (by decide)).trans eitr)
        · exact (power.frame frame1 (by decide)).frame frame2 (by decide)

theorem init_spec (closed : object.opened = false)
    (verifies : ∀ u, u.bar = true → (Steady allows → Configured mode u) → Passes names (Answers allows names u)) :
    Safe (watch p) allows Setup.start (init p mode object) (Brought p mode names object) := by
  refine safe_bind.mpr (safe_request rfl (fun (opened : Bool) _ => ?_))
  cases opened with
  | false =>
    exact ⟨closed,fun _ => ⟨rfl,rfl⟩,fun _ => rfl,fun _ => rfl,by simp,by simp,by simp,
      by simp [Setup.effect,Setup.start]⟩
  | true =>
    refine safe_bind.mpr (safe_request rfl (fun _ _ => ?_))
    have start : Fresh ({Setup.start with bar := true} : Setup).forget := ⟨rfl,rfl,rfl,rfl,fun _ => rfl,rfl⟩
    refine safe_bind.mpr ((reset_spec rfl).mono ?_)
    rintro _ t1 ⟨mapped,frame1⟩
    have fresh1 := start.frame frame1 (fun _ _ => id)
    refine safe_bind.mpr ((disableInterrupts_spec mapped).mono ?_)
    rintro _ t2 ⟨⟨mapped,frame2⟩,eitr⟩
    refine safe_bind.mpr ((disableEEE_spec mapped).mono ?_)
    rintro _ t3 ⟨⟨mapped,frame3⟩,power⟩
    have phy : Quiet p allows (· = Reg.phyPowerMgmt) clearPhyLinkDown := quiet_clearBits rfl (by rfl) _
    refine phy.then mapped (fun _ t4 mapped frame4 => ?_)
    refine quiet_zeroMulticastTable.then mapped (fun _ t5 mapped frame5 => ?_)
    have read : Quiet p allows (fun _ => False) readMacAddress := quiet_readMacAddress
    refine read.then mapped (fun mac t6 mapped frame6 => ?_)
    have fresh6 : Fresh t6 :=
      ((((fresh1.frame frame2 (by decide)).frame frame3 (by decide)).frame frame4 (by decide)).frame
        frame5 (by decide)).frame
        frame6 (fun _ _ => id)
    have eitr6 : t6.reg Reg.eitr0 = some 0xFFFF := by
      rw [frame6.reg _ id,frame5.reg _ (by decide),frame4.reg _ (by decide),frame3.reg _ (by decide),eitr]
    have power6 : PowerOff t6 :=
      ((power.frame frame4 (by decide)).frame frame5 (by decide)).frame frame6 (fun _ _ => id)
    have up : Safe (watch p) allows t6 (bringUp p mode {object with opened := true, mac := mac})
      (Brought p mode names {object with opened := true, mac := mac}) := bringUp_spec fresh6 rfl eitr6 power6 verifies
    exact up.mono (fun _ _ up => ⟨up.opened,up.unmapped,up.noRx,up.noTx,up.mapped,up.rx,up.tx,up.warned⟩)

end Abtrda3.I210BringUp
