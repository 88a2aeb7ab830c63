import RiscvWorker.Firmware.ControlModule
import RiscvWorker.System.DebugPort

/-! # A debugger session

  The driver of the firmware talks to a halted core. Each call is one
  transaction on the control port, with any number of cycles between the
  handshakes and between the calls. To the driver the core is a store: the
  PC and the registers, changed and read by nothing but its own calls.
-/

namespace RiscvWorker

open AxiLite (Master Slave aw_handshake w_handshake b_handshake ar_handshake r_handshake)
open CmAndCore (DebugState)

/-! ### The store the driver believes in -/

namespace Firmware

/-- What a call does to the store. A fault is the function the firmware
    applies to memory words. -/
def Call.perform : Call → DebugState → DebugState
  | .cm_regfile_write r v, d => { d with x := RegisterFile.update d.x (r.setWidth 5) v }
  | .cm_regfile_fault_inject r mask mode, d =>
    { d with
      x := RegisterFile.update d.x (r.setWidth 5)
        (apply_fault_mode (d.x (r.setWidth 5)) mode.value mask) }
  | .cm_pc_set v, d => { d with pc := v }
  | .cm_regfile_read _, d | .cm_pc_read, d => d

/-- What a call returns. -/
def Call.result : Call → DebugState → Option Word
  | .cm_regfile_read r, d => some (d.x (r.setWidth 5))
  | .cm_pc_read, d => some d.pc
  | _, _ => none

/-- The store after a sequence of calls. -/
def perform_all (calls : List Call) (d : DebugState) : DebugState :=
  calls.foldl (fun d c => c.perform d) d

/-- What a sequence of calls returns. -/
def results : List Call → DebugState → List (Option Word)
  | [], _ => []
  | c :: calls, d => c.result d :: results calls (c.perform d)

theorem fault_injector_eq (original mask : Word) (mode : FaultMode) :
    fault_injector original mask (mode.value.setWidth 2) =
      apply_fault_mode original mode.value mask := by
  cases mode <;> rfl

end Firmware

open Firmware (Call)

namespace CmAndCore

/-! ### Calls on the bus -/

/-- A call as a transaction on the control port, from its first cycle `t` to
    the cycle of its answer. Writes have all four strobes set. -/
inductive CallTransaction (e : Lts.Execution CmAndCore Input) (baseaddr : Word) :
    Call → Nat → Nat → Prop where
  | write {c : Call} {addr data : Word} {t ta tw tb : Nat} :
    c.access baseaddr = .out32 addr data →
    SocControl.WriteTransaction (control e) t ta tw tb →
    (e.labels ta).s_axi.awaddr = addr →
    (e.labels tw).s_axi.wdata = data ∧ (e.labels tw).s_axi.wstrb = 0b1111#4 →
    CallTransaction e baseaddr c t tb
  | read {c : Call} {addr : Word} {ta tr : Nat} :
    c.access baseaddr = .in32 addr →
    SocControl.ReadTransaction (control e) ta tr →
    (e.labels ta).s_axi.araddr = addr →
    CallTransaction e baseaddr c ta tr

/-- The answer of a call: the response, and the data of a read. -/
def answer (e : Lts.Execution CmAndCore Input) (baseaddr : Word) (c : Call) (t : Nat) :
    BitVec 2 × Option Word :=
  match c.access baseaddr with
  | .out32 _ _ => ((e.states t).s_axi.bresp, none)
  | .in32 _ => ((e.states t).s_axi.rresp, some (e.states t).s_axi.rdata)

/-- What the driver does from cycle `t` to `t'`: nothing, or one call after
    the other. The calls are listed with the cycles of their answers. -/
inductive Session (e : Lts.Execution CmAndCore Input) (baseaddr : Word) :
    Nat → List (Call × Nat) → Nat → Prop where
  | done {t : Nat} : Session e baseaddr t [] t
  | idle {t t' : Nat} {l : List (Call × Nat)} :
    (e.labels t).s_axi.arvalid = false → (e.labels t).s_axi.awvalid = false →
    Session e baseaddr (t + 1) l t' → Session e baseaddr t l t'
  | call {t tb t' : Nat} {c : Call} {l : List (Call × Nat)} :
    CallTransaction e baseaddr c t tb → Session e baseaddr (tb + 1) l t' →
    Session e baseaddr t ((c, tb) :: l) t'

/-- A master that makes an access from cycle `t` on, with any delays of its
    own. -/
def Presents (e : Lts.Execution CmAndCore Input) (t : Nat) : Firmware.Access → Prop
  | .out32 addr data =>
    (e.labels t).s_axi.arvalid = false ∧ (e.labels t).s_axi.awvalid = true ∧
    ∃ ta, t < ta ∧ (e.labels ta).s_axi.awvalid = true ∧ (e.labels ta).s_axi.awaddr = addr ∧
      (∀ j, t < j → j < ta → (e.labels j).s_axi.awvalid = false) ∧
    ∃ tw, ta < tw ∧ (e.labels tw).s_axi.wvalid = true ∧
      ((e.labels tw).s_axi.wdata = data ∧ (e.labels tw).s_axi.wstrb = 0b1111#4) ∧
      (∀ j, ta < j → j < tw → (e.labels j).s_axi.wvalid = false) ∧
    ∃ tb, tw + 3 ≤ tb ∧ (e.labels tb).s_axi.bready = true
  | .in32 addr =>
    (e.labels t).s_axi.arvalid = true ∧ (e.labels t).s_axi.araddr = addr ∧
    ∃ tr, t + 3 ≤ tr ∧ (e.labels tr).s_axi.rready = true

/-! ### Stretches of a halted core -/

section stretches
variable {e : Lts.Execution CmAndCore Input} {t t' : Nat}
  (hs : ∀ k, e.states (k + 1) = (e.states k).next (e.labels k))
include hs

/-- A core that waits goes on waiting while the stall is high. -/
theorem waiting_while_stalled (hw : (e.states t).cpu.At .waiting)
    (hst : ∀ j, t ≤ j → j < t' → (e.states j).soc_control.pc_stall = true)
    {j : Nat} (hj : t ≤ j) (hjt : j ≤ t') : (e.states j).cpu.At .waiting := by
  refine Lts.stretch_induction (P := fun j => (e.states j).cpu.At .waiting) hj hw ?_
  intro k hk hkj hat
  rw [hs k]
  exact (halted_step hat (hst k hk (by omega)) _).1

/-- A stalled core that waits keeps what the debugger sees until the next
    write is issued. -/
theorem debug_state_kept (hw : (e.states t).cpu.At .waiting)
    (hst : ∀ j, t ≤ j → j < t' → (e.states j).soc_control.pc_stall = true)
    (hno : ∀ j, t ≤ j → j < t' → (e.states j).soc_control.state ≠ .write_issue)
    (htt : t ≤ t') : (e.states t').cpu.debug_state = (e.states t).cpu.debug_state := by
  refine Lts.stretch_induction
    (P := fun j => (e.states j).cpu.debug_state = (e.states t).cpu.debug_state) htt rfl ?_
  intro k hk hkt heq
  have hat := waiting_while_stalled hs hw hst hk (Nat.le_of_lt hkt)
  have hquiet := quiet_of_not_issue (hno k hk hkt)
  obtain ⟨-, hkeep, -⟩ := halted_step hat (hst k hk hkt) (e.labels k)
  rw [hs k, hkeep, debug_write_of_quiet hquiet, heq]

/-- Over a stretch with one issued write that write is the only change. -/
theorem debug_state_issued (hw : (e.states t).cpu.At .waiting)
    (hst : ∀ j, t ≤ j → j < t' → (e.states j).soc_control.pc_stall = true)
    {k : Nat} (hk : t ≤ k) (hkt : k < t')
    (hno : ∀ j, t ≤ j → j < t' → j ≠ k → (e.states j).soc_control.state ≠ .write_issue) :
    (e.states t').cpu.debug_state =
      debug_write (e.states k).cm (e.states t).cpu.debug_state := by
  -- unchanged up to the write, and again after it
  have hbefore : (e.states k).cpu.debug_state = (e.states t).cpu.debug_state :=
    debug_state_kept hs hw (fun j hj hjk => hst j hj (by omega))
      (fun j hj hjk => hno j hj (by omega) (by omega)) hk
  have hat := waiting_while_stalled hs hw hst hk (Nat.le_of_lt hkt)
  have hnext : (e.states (k + 1)).cpu.debug_state =
      debug_write (e.states k).cm (e.states k).cpu.debug_state := by
    rw [hs k]
    exact (halted_step hat (hst k hk hkt) _).2.1
  have hat' := waiting_while_stalled hs hw hst (j := k + 1) (by omega) hkt
  have hafter : (e.states t').cpu.debug_state = (e.states (k + 1)).cpu.debug_state :=
    debug_state_kept hs hat' (fun j hj hjt => hst j (by omega) hjt)
      (fun j hj hjt => hno j (by omega) hjt (by omega)) hkt
  rw [hafter, hnext, hbefore]

end stretches

/-! ### The calls, one by one -/

/-- An issued write of a call changes the store as the call does. -/
theorem Issues.debug_write_call {s : CmAndCore} {baseaddr addr data : Word} {c : Call}
    (hbase : baseaddr.extractLsb' 0 16 = 0#16) (hc : c.Valid)
    (ha : c.access baseaddr = .out32 addr data) (h : s.Issues addr data) (d : DebugState) :
    debug_write s.cm d = c.perform d := by
  cases c with
  | cm_regfile_write r v =>
    obtain ⟨rfl, rfl⟩ := Firmware.Access.out32.inj ha
    obtain ⟨hsel, hoff⟩ := Firmware.REGFILE_ADDR_window hbase r
    exact h.debug_write_register (Firmware.register_ne_zero hc.1 hc.2) hsel hoff d
  | cm_regfile_fault_inject r mask mode =>
    obtain ⟨rfl, rfl⟩ := Firmware.Access.out32.inj ha
    obtain ⟨hsel, hoff⟩ := Firmware.FAULT_REQUEST_window hbase mode r
    rw [h.debug_write_fault (Firmware.register_ne_zero hc.1 hc.2) hsel hoff d,
      Firmware.fault_injector_eq]
    rfl
  | cm_pc_set v =>
    obtain ⟨rfl, rfl⟩ := Firmware.Access.out32.inj ha
    obtain ⟨hsel, hoff⟩ := Firmware.CONTROL_REG_ADDR_pc hbase
    exact h.debug_write_pc hsel hoff d
  | cm_regfile_read r => cases ha
  | cm_pc_read => cases ha

/-- The driver's writes are allowed by the address map and leave the stall
    alone. -/
theorem access_okay_write {baseaddr addr data : Word} {c : Call}
    (hbase : baseaddr.extractLsb' 0 16 = 0#16) (hc : c.Valid)
    (ha : c.access baseaddr = .out32 addr data) :
    okay_write addr 0b1111#4 ∧
      (∀ stall, SocControl.issued_stall stall addr = stall) ∧
      ¬ (selector addr = SUB_SEL_CTRL ∧ window_offset addr = CTRL_REG_STEP) := by
  cases c with
  | cm_regfile_write r v =>
    obtain ⟨rfl, rfl⟩ := Firmware.Access.out32.inj ha
    obtain ⟨hsel, hoff⟩ := Firmware.REGFILE_ADDR_window hbase r
    have hne : selector (baseaddr + Firmware.REGFILE_ADDR (r.setWidth 32)) ≠ SUB_SEL_CTRL := by
      rw [hsel]
      decide
    refine ⟨⟨rfl, Or.inr (Or.inl ⟨hsel, _, Firmware.register_ne_zero hc.1 hc.2, hoff⟩)⟩, ?_, ?_⟩
    · intro stall
      exact if_neg hne
    · intro hstep
      exact hne hstep.1
  | cm_regfile_fault_inject r mask mode =>
    obtain ⟨rfl, rfl⟩ := Firmware.Access.out32.inj ha
    obtain ⟨hsel, hoff⟩ := Firmware.FAULT_REQUEST_window hbase mode r
    have hne : selector (baseaddr + Firmware.FAULT_REQUEST mode.value (r.setWidth 32)) ≠
        SUB_SEL_CTRL := by
      rw [hsel]
      decide
    refine ⟨⟨rfl, Or.inr (Or.inr ⟨hsel, _, _, Firmware.register_ne_zero hc.1 hc.2, hoff⟩)⟩, ?_, ?_⟩
    · intro stall
      exact if_neg hne
    · intro hstep
      exact hne hstep.1
  | cm_pc_set v =>
    obtain ⟨rfl, rfl⟩ := Firmware.Access.out32.inj ha
    obtain ⟨hsel, hoff⟩ := Firmware.CONTROL_REG_ADDR_pc hbase
    refine ⟨⟨rfl, Or.inl ⟨hsel, Or.inr (Or.inr (Or.inr hoff))⟩⟩, ?_, ?_⟩
    · intro stall
      unfold SocControl.issued_stall
      rw [hsel, hoff]
      rfl
    · intro hstep
      rw [hoff] at hstep
      exact absurd hstep.2 (by decide)
  | cm_regfile_read r => cases ha
  | cm_pc_read => cases ha

/-- The driver's reads are answered. -/
theorem access_answered_read {baseaddr addr : Word} {c : Call}
    (hbase : baseaddr.extractLsb' 0 16 = 0#16) (ha : c.access baseaddr = .in32 addr) :
    SocControl.answered_read addr := by
  cases c with
  | cm_regfile_read r =>
    obtain rfl := Firmware.Access.in32.inj ha
    obtain ⟨hsel, hoff⟩ := Firmware.REGFILE_ADDR_window hbase r
    exact Or.inr ⟨hsel, _, hoff⟩
  | cm_pc_read =>
    obtain rfl := Firmware.Access.in32.inj ha
    obtain ⟨hsel, hoff⟩ := Firmware.CONTROL_REG_ADDR_pc hbase
    exact Or.inl ⟨hsel, Or.inr (Or.inr (Or.inl hoff))⟩
  | cm_regfile_write r v => cases ha
  | cm_regfile_fault_inject r mask mode => cases ha
  | cm_pc_set v => cases ha

/-- One call on a halted core: what it returns, what it changes, and that the
    core stays halted. -/
structure CallSpec (e : Lts.Execution CmAndCore Input) (baseaddr : Word) (c : Call)
    (t t' : Nat) : Prop where
  answered : answer e baseaddr c t' = (AXI_RESP_OKAY, c.result (e.states t).cpu.debug_state)
  performed : (e.states (t' + 1)).cpu.debug_state = c.perform (e.states t).cpu.debug_state
  idle : (e.states (t' + 1)).soc_control.state = .idle
  later : t ≤ t'
  waiting : ∀ j, t ≤ j → j ≤ t' + 1 → (e.states j).cpu.At .waiting
  stalled : ∀ j, t ≤ j → j ≤ t' + 1 → (e.states j).soc_control.pc_stall = true

section calls
variable {e : Lts.Execution CmAndCore Input} {baseaddr : Word}
  (hs : ∀ k, e.states (k + 1) = (e.states k).next (e.labels k))
  (hbase : baseaddr.extractLsb' 0 16 = 0#16)
include hs hbase

/-- The value of a read is what the debugger saw when the read began. The PC
    is sampled in READ_ISSUE; the register file reads its registered port in
    that cycle, and the module takes its output one cycle later. -/
theorem read_value_eq {c : Call} {addr : Word} {ta tr : Nat}
    (ha : c.access baseaddr = .in32 addr) (h : SocControl.ReadTransaction (control e) ta tr)
    (haddr : (e.labels ta).s_axi.araddr = addr)
    (hkept : (e.states (ta + 1)).cpu.debug_state = (e.states ta).cpu.debug_state) :
    some (SocControl.read_value (control e) ta) = c.result (e.states ta).cpu.debug_state := by
  have haddr' : ((control e).labels ta).s_axi.araddr = addr := haddr
  have hval := SocControl.read_value_source (control_step hs) (register_file_attached hs) h.address
    (haddr' ▸ access_answered_read hbase ha)
  rw [hval, haddr', SocControl.source_value, ← hkept]
  cases c with
  | cm_regfile_read r =>
    obtain rfl := Firmware.Access.in32.inj ha
    obtain ⟨hsel, hoff⟩ := Firmware.REGFILE_ADDR_window hbase r
    rw [hsel, if_neg (by decide), SocControl.register_field, hoff, register_offset_field]
    rfl
  | cm_pc_read =>
    obtain rfl := Firmware.Access.in32.inj ha
    obtain ⟨hsel, hoff⟩ := Firmware.CONTROL_REG_ADDR_pc hbase
    rw [if_pos hsel, hoff]
    rfl
  | cm_regfile_write r v => cases ha
  | cm_regfile_fault_inject r mask mode => cases ha
  | cm_pc_set v => cases ha

/-- A call on a halted core with a free control module. -/
theorem call_spec {c : Call} (hc : c.Valid) {t t' : Nat} (hd : (e.states t).Drained)
    (hw : (e.states t).cpu.At .waiting) (h : CallTransaction e baseaddr c t t') :
    CallSpec e baseaddr c t t' := by
  cases h with
  | @write addr data _ ta tw _ ha htrans haddr hdata =>
    have haddr' : ((control e).labels ta).s_axi.awaddr = addr := haddr
    have hstrb : ((control e).labels tw).s_axi.wstrb = 0b1111#4 := hdata.2
    obtain ⟨hokay, hstall, hstep⟩ := access_okay_write hbase hc ha
    have hlate := htrans.answer_after (control_step hs)
    have hta := htrans.address.1
    have htw := htrans.data.1
    -- none of the driver's addresses touches the stall
    have hst : ∀ j, t ≤ j → j ≤ t' + 1 → (e.states j).soc_control.pc_stall = true := by
      intro j hj hjt
      have hkept := htrans.stall_kept (control_step hs) (haddr' ▸ hstall _) (haddr' ▸ hstep)
        hj hjt
      exact hkept.trans hd.pc_stall
    -- the write is carried out in one cycle, and nothing else is
    have hissues : (e.states (tw + 1)).Issues addr data := by
      obtain ⟨hP, hlatched, hldata, hlstrb⟩ := htrans.issue (control_step hs)
      rw [haddr'] at hlatched
      exact ⟨hP.state, hlatched, hldata.trans hdata.1, hlstrb.trans hstrb⟩
    have hperformed : (e.states (t' + 1)).cpu.debug_state =
        debug_write (e.states (tw + 1)).cm (e.states t).cpu.debug_state :=
      debug_state_issued hs hw (fun j hj hjt => hst j hj (by omega)) (by omega) (by omega)
        (fun j hj hjt hne => htrans.not_issue (control_step hs) hj (by omega) hne)
    rw [hissues.debug_write_call hbase hc ha] at hperformed
    refine ⟨?_, hperformed, htrans.idle_after (control_step hs), by omega, ?_, hst⟩
    · have hresp := (htrans.bresp (control_step hs)).1
      rw [haddr', hstrb] at hresp
      unfold answer
      rw [ha]
      show ((e.states t').s_axi.bresp, none) = _
      rw [show (e.states t').s_axi.bresp = AXI_RESP_OKAY from hresp.mpr hokay]
      cases c with
      | cm_regfile_read r => cases ha
      | cm_pc_read => cases ha
      | cm_regfile_write r v => rfl
      | cm_regfile_fault_inject r mask mode => rfl
      | cm_pc_set v => rfl
    · intro j hj hjt
      exact waiting_while_stalled hs hw (fun j hj hjt => hst j hj (by omega)) hj hjt
  | @read addr _ _ ha htrans haddr =>
    have hlate := htrans.answer_after (control_step hs)
    have hst : ∀ j, t ≤ j → j ≤ t' + 1 → (e.states j).soc_control.pc_stall = true := by
      intro j hj hjt
      exact (htrans.stall_kept (control_step hs) hj hjt).trans hd.pc_stall
    -- a read issues no write, so the debugger's view stays what it was
    have hkept : ∀ j, t ≤ j → j ≤ t' + 1 →
        (e.states j).cpu.debug_state = (e.states t).cpu.debug_state := by
      intro j hj hjt
      exact debug_state_kept hs hw (fun k hk hkj => hst k hk (by omega))
        (fun k hk hkj => (htrans.no_write (control_step hs) hk (by omega)).1) hj
    have hperform : c.perform (e.states t).cpu.debug_state = (e.states t).cpu.debug_state := by
      cases c with
      | cm_regfile_read r => rfl
      | cm_pc_read => rfl
      | cm_regfile_write r v => cases ha
      | cm_regfile_fault_inject r mask mode => cases ha
      | cm_pc_set v => cases ha
    refine ⟨?_, ?_, htrans.idle_after (control_step hs), by omega, ?_, hst⟩
    · obtain ⟨hokay, -, hdata, -⟩ := htrans.answered (control_step hs)
      have hans : SocControl.answered_read ((control e).labels t).s_axi.araddr :=
        haddr.symm ▸ access_answered_read hbase ha
      have hvalue := read_value_eq hs hbase ha htrans haddr (hkept _ (by omega) (by omega))
      unfold answer
      rw [ha, ← hvalue, ← hdata hans]
      exact Prod.ext (hokay.mpr hans) rfl
    · rw [hperform]
      exact hkept _ (by omega) (Nat.le_refl _)
    · intro j hj hjt
      exact waiting_while_stalled hs hw (fun j hj hjt => hst j hj (by omega)) hj hjt

end calls

/-! ### Sessions -/

section sessions
variable {e : Lts.Execution CmAndCore Input} {baseaddr : Word}

theorem Session.append {t t' t'' : Nat} {l l' : List (Call × Nat)}
    (h : Session e baseaddr t l t') (h' : Session e baseaddr t' l' t'') :
    Session e baseaddr t (l ++ l') t'' := by
  induction h with
  | done => exact h'
  | idle har haw _ ih => exact .idle har haw (ih h')
  | call hcall _ ih => exact .call hcall (ih h')

/-- Whatever access a master makes, the free control module completes it. -/
theorem CallTransaction.of_master (hs : ∀ k, e.states (k + 1) = (e.states k).next (e.labels k))
    {c : Call} {t : Nat} (hidle : (e.states t).soc_control.state = .idle)
    (h : Presents e t (c.access baseaddr)) : ∃ t', CallTransaction e baseaddr c t t' := by
  cases ha : c.access baseaddr with
  | out32 addr data =>
    rw [ha] at h
    obtain ⟨har, haw, ta, hta, hav, haddr, hanone, tw, htw, hwv, hdata, hwnone, tb, hready⟩ := h
    obtain ⟨tb', htrans⟩ := SocControl.WriteTransaction.of_master (control_step hs)
      ⟨hidle, har, haw⟩ ⟨hta, hav, hanone⟩ ⟨htw, hwv, hwnone⟩ hready
    exact ⟨tb', .write ha htrans haddr hdata⟩
  | in32 addr =>
    rw [ha] at h
    obtain ⟨har, haddr, tr, hready⟩ := h
    obtain ⟨tr', htrans⟩ := SocControl.ReadTransaction.of_master (control_step hs)
      ⟨hidle, har⟩ hready
    exact ⟨tr', .read ha htrans haddr⟩

/-- The invariant of a session: halted, drained, and free for a call. -/
structure Ready (s : CmAndCore) : Prop where
  idle : s.soc_control.state = .idle
  stalled : s.soc_control.pc_stall = true
  waiting : s.cpu.At .waiting

theorem drained_of_waiting {s : CmAndCore} (hw : s.cpu.At .waiting)
    (hst : s.soc_control.pc_stall = true) : s.Drained :=
  (drained_iff hw).mpr ⟨rfl, hst⟩

/-- A cycle without a request changes nothing. -/
theorem Ready.idle_cycle {s : CmAndCore} (h : s.Ready) {i : Input}
    (har : i.s_axi.arvalid = false) (haw : i.s_axi.awvalid = false) :
    (s.next i).Ready ∧ (s.next i).cpu.debug_state = s.cpu.debug_state := by
  have hne : s.soc_control.state ≠ .write_issue := by
    rw [h.idle]
    decide
  have hnd : s.soc_control.state ≠ .write_wait_done := by
    rw [h.idle]
    decide
  obtain ⟨hat, hkeep, -⟩ := halted_step h.waiting h.stalled i
  have hst := SocControl.pc_stall_next (s.soc_input i) hne hnd
  have hidle := SocControl.next_of_idle (s.soc_input i) h.idle har haw
  refine ⟨⟨hidle, hst.trans h.stalled, hat⟩, ?_⟩
  rw [hkeep, debug_write_of_quiet (quiet_of_not_issue hne)]

/-- What holds over a session. -/
structure SessionSpec (e : Lts.Execution CmAndCore Input) (baseaddr : Word) (t : Nat)
    (l : List (Call × Nat)) (t' : Nat) : Prop where
  answers : l.map (fun ct => answer e baseaddr ct.1 ct.2) =
    (Firmware.results (l.map Prod.fst) (e.states t).cpu.debug_state).map
      (fun r => (AXI_RESP_OKAY, r))
  store : (e.states t').cpu.debug_state =
    Firmware.perform_all (l.map Prod.fst) (e.states t).cpu.debug_state
  ready : (e.states t').Ready
  halted : ∀ j, t ≤ j → j ≤ t' →
    (e.states j).cpu.At .waiting ∧ (e.states j).soc_control.pc_stall = true

theorem session_spec (hs : ∀ k, e.states (k + 1) = (e.states k).next (e.labels k))
    (hbase : baseaddr.extractLsb' 0 16 = 0#16) {t t' : Nat} {l : List (Call × Nat)}
    (hc : ∀ ct ∈ l, ct.1.Valid) (hr : (e.states t).Ready) (h : Session e baseaddr t l t') :
    SessionSpec e baseaddr t l t' := by
  -- along the session, from the first call to the last
  induction h with
  | @done t =>
    refine ⟨rfl, rfl, hr, ?_⟩
    intro j hj hjt
    have heq : j = t := by omega
    rw [heq]
    exact ⟨hr.waiting, hr.stalled⟩
  | @idle t t' l har haw _ ih =>
    obtain ⟨hr', hkeep⟩ := hr.idle_cycle har haw
    rw [← hs t] at hr' hkeep
    obtain ⟨hans, hstore, hready, hhalt⟩ := ih hc hr'
    rw [hkeep] at hans hstore
    refine ⟨hans, hstore, hready, ?_⟩
    intro j hj hjt
    by_cases heq : j = t
    · rw [heq]
      exact ⟨hr.waiting, hr.stalled⟩
    · exact hhalt j (by omega) hjt
  | @call t tb t' c l hcall _ ih =>
    have hspec := call_spec hs hbase (hc (c, tb) List.mem_cons_self)
      (drained_of_waiting hr.waiting hr.stalled) hr.waiting hcall
    have hlater := hspec.later
    have hr' : (e.states (tb + 1)).Ready :=
      ⟨hspec.idle, hspec.stalled _ (by omega) (Nat.le_refl _),
        hspec.waiting _ (by omega) (Nat.le_refl _)⟩
    -- the rest of the session starts from what this call left
    obtain ⟨hans, hstore, hready, hhalt⟩ :=
      ih (fun ct hct => hc ct (List.mem_cons_of_mem _ hct)) hr'
    rw [hspec.performed] at hans hstore
    refine ⟨?_, hstore, hready, ?_⟩
    · rw [List.map_cons, List.map_cons, Firmware.results, List.map_cons, hans, hspec.answered]
    · intro j hj hjt
      by_cases hin : j ≤ tb + 1
      · exact ⟨hspec.waiting j hj hin, hspec.stalled j hj hin⟩
      · exact hhalt j (by omega) hjt

end sessions

/-- A debugger session on a halted core is a register store: every call is
    answered OKAY and returns what the store holds, the store is afterwards
    what the calls made of it, the core stays halted with an idle memory port
    all the while, and any further call is answered as well. -/
theorem session_is_register_store {e : Lts.Execution CmAndCore Input} (hv : system.valid_exec e)
    {baseaddr : Word} (hbase : baseaddr.extractLsb' 0 16 = 0#16) {t t' : Nat}
    {l : List (Call × Nat)} (hc : ∀ ct ∈ l, ct.1.Valid)
    (hidle : (e.states t).soc_control.state = .idle) (hd : (e.states t).Drained)
    (h : Session e baseaddr t l t') :
    l.map (fun ct => answer e baseaddr ct.1 ct.2) =
      (Firmware.results (l.map Prod.fst) (e.states t).cpu.debug_state).map
        (fun r => (AXI_RESP_OKAY, r)) ∧
    (e.states t').cpu.debug_state =
      Firmware.perform_all (l.map Prod.fst) (e.states t).cpu.debug_state ∧
    (∀ j, t ≤ j → j ≤ t' →
      (e.states j).Drained ∧ (e.states j).m_axi (e.labels j) = Master.idle) ∧
    ∀ c : Call, Presents e t' (c.access baseaddr) →
      ∃ tb, Session e baseaddr t (l ++ [(c, tb)]) (tb + 1) := by
  obtain ⟨p, hp⟩ := phase_of_run hv t
  obtain ⟨rfl, hst⟩ := (drained_iff hp).mp hd
  have hspec := session_spec hv.2 hbase hc ⟨hidle, hst, hp⟩ h
  refine ⟨hspec.answers, hspec.store, ?_, ?_⟩
  · intro j hj hjt
    obtain ⟨hw, hstall⟩ := hspec.halted j hj hjt
    exact ⟨drained_of_waiting hw hstall, (halted_step hw hstall _).2.2⟩
  · intro c hpres
    obtain ⟨tb, hcall⟩ := CallTransaction.of_master hv.2 hspec.ready.idle hpres
    exact ⟨tb, h.append (.call hcall .done)⟩

/-- The driver after reset: it writes x5, flips bits of it with a fault, waits
    a cycle and reads it back. -/
def session_run : Lts.Execution CmAndCore Input :=
  .of_inputs next reset fun k =>
    { s_axi :=
        if k < 6 then .writing 0x60002014#32 0xFF00FF00#32 0b1111#4
        else if k < 12 then .writing 0x60003114#32 0x0000FFFF#32 0b1111#4
        else if k < 13 then .idle
        else .reading 0x60002014#32
      m_axi := .idle }

theorem session_run_valid : system.valid_exec session_run := ⟨rfl, fun _ => rfl⟩

theorem session_run_write : SocControl.WriteTransaction (control session_run) 0 1 2 5 :=
  .of_fast_master (control_step session_run_valid.2) rfl (fun _ _ hj => if_pos (by omega))

theorem session_run_fault : SocControl.WriteTransaction (control session_run) 6 7 8 11 :=
  have hs := control_step session_run_valid.2
  .of_fast_master hs (session_run_write.idle_after hs)
    (fun _ hj hj' => (if_neg (by omega)).trans (if_pos (by omega)))

theorem session_run_read : SocControl.ReadTransaction (control session_run) 13 16 :=
  have hs := control_step session_run_valid.2
  have hidle : ∀ k, 12 ≤ k → k < 13 →
      ((control session_run).labels k).s_axi.arvalid = false ∧
        ((control session_run).labels k).s_axi.awvalid = false := by
    intro k hk hk'
    obtain rfl : k = 12 := by omega
    exact ⟨rfl, rfl⟩
  .of_fast_master hs (SocControl.stays_idle hs (session_run_fault.idle_after hs) (by omega) hidle)
    (fun _ hj _ => ((if_neg (by omega)).trans (if_neg (by omega))).trans (if_neg (by omega)))

theorem session_run_session :
    Session session_run 0x60000000#32 0
      [(.cm_regfile_write 5#8 0xFF00FF00#32, 5),
        (.cm_regfile_fault_inject 5#8 0x0000FFFF#32 .CM_FAULT_MODE_XOR_MASK, 11),
        (.cm_regfile_read 5#8, 16)] 17 := by
  apply Session.call (.write rfl session_run_write rfl ⟨rfl, rfl⟩)
  apply Session.call (.write rfl session_run_fault rfl ⟨rfl, rfl⟩)
  apply Session.idle rfl rfl
  exact Session.call (.read rfl session_run_read rfl) .done

/-- The driver reads back what its write and its fault made of x5. -/
theorem session_is_register_store_x5 :
    answer session_run 0x60000000#32 (.cm_regfile_read 5#8) 16 =
      (AXI_RESP_OKAY, some 0xFF0000FF#32) := by
  obtain ⟨hanswers, -⟩ := session_is_register_store session_run_valid (by decide)
    (by simp [Call.Valid]) rfl ⟨rfl, rfl, rfl, rfl⟩ session_run_session
  have hlast := congrArg List.getLast? hanswers
  exact Option.some.inj hlast

end CmAndCore

end RiscvWorker
