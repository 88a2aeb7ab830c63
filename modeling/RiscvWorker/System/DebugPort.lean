import RiscvWorker.Control.AxiSlave
import RiscvWorker.Core.ClockEdge
import RiscvWorker.Hdl.CmAndCore

/-! # Control module and core

  Runs of `cm_and_core` between an arbitrary master on the control port and
  an arbitrary slave on the memory port; what the control module writes into
  the core, and what that does to a halted core.
-/

namespace RiscvWorker

open AxiLite (Master Slave ar_handshake)

namespace CmAndCore

/-- The control module and the core in an arbitrary environment. -/
def system : Lts.System CmAndCore Input where
  init s := s = reset
  step s i s' := s' = s.next i

/-- The run of the control module within a run. -/
def control (e : Lts.Execution CmAndCore Input) : Lts.Execution SocControl SocControl.Input where
  states k := (e.states k).soc_control
  labels k := (e.states k).soc_input (e.labels k)

theorem control_step {e : Lts.Execution CmAndCore Input}
    (hs : ∀ k, e.states (k + 1) = (e.states k).next (e.labels k)) (k : Nat) :
    (control e).states (k + 1) = ((control e).states k).next ((control e).labels k) := by
  show (e.states (k + 1)).soc_control = _
  rw [hs k]
  rfl

/-- The register file of the core is the one behind the control module. -/
theorem register_file_attached {e : Lts.Execution CmAndCore Input}
    (hs : ∀ k, e.states (k + 1) = (e.states k).next (e.labels k)) :
    SocControl.Attached (control e) fun k => (e.states k).cpu.register_file where
  step k := ⟨(e.states k).cpu.register_file_input ((e.states k).cpu_input (e.labels k)), rfl, by
    rw [hs k]
    rfl⟩
  data _ := rfl

theorem phase_of_run {e : Lts.Execution CmAndCore Input} (hv : system.valid_exec e) (k : Nat) :
    ∃ p, (e.states k).cpu.At p := by
  refine hv.always (P := fun s => ∃ p, s.cpu.At p) ?_ ?_ k
  · rintro s rfl
    exact ⟨.waiting, RiscvCpu.At.reset⟩
  · rintro s i s' ⟨p, hp⟩ rfl
    exact ⟨_, hp.next (s.cpu_input i)⟩

/-- The memory accepts the address of an instruction: a read address that is
    not the one of a load. -/
def fetches (s : CmAndCore) (i : Input) : Bool :=
  ar_handshake (s.m_axi i) i.m_axi && s.cpu.memory_arbiter.state != .l_wait_arready

theorem fetches_iff {s : CmAndCore} {p : Phase} (h : s.cpu.At p) (i : Input) :
    s.fetches i = true ↔
      ((p = .waiting ∧ s.soc_control.pc_stall = false) ∨ p = .fetch_addr) ∧
        i.m_axi.arready = true := by
  obtain ⟨-, -, -, -, -, harb, -⟩ := h.fields
  have hport : s.m_axi i = s.cpu.port s.soc_control.pc_stall p := h.m_axi _
  unfold fetches ar_handshake
  rw [hport, harb]
  cases p <;> simp [RiscvCpu.port, Phase.flags, Master.idle]

/-! ### Debug writes -/

/-- What the debugger sees of the core: the PC and the registers. -/
structure DebugState where
  pc : Word
  x : BitVec 5 → Word

end CmAndCore

open CmAndCore (DebugState)

def RiscvCpu.debug_state (s : RiscvCpu) : DebugState where
  pc := s.pc
  x := s.register_file.read

namespace CmAndCore

/-- The write of the control module in one cycle, applied to `d`. -/
def debug_write (cm : CmPort) (d : DebugState) : DebugState where
  pc := if cm.cm_pc_we then cm.cm_pc_write_data else d.pc
  x :=
    if cm.cm_regfile_we && cm.cm_regfile_addr != 0#5 then
      RegisterFile.update d.x cm.cm_regfile_addr cm.cm_regfile_write_data
    else if cm.cm_regfile_fault_enable && cm.cm_regfile_fault_addr != 0#5 then
      RegisterFile.update d.x cm.cm_regfile_fault_addr
        (fault_injector (d.x cm.cm_regfile_fault_addr) cm.cm_regfile_fault_mask
          cm.cm_regfile_fault_mode)
    else d.x

theorem debug_write_of_quiet {cm : CmPort} (hq : cm.quiet) (d : DebugState) :
    debug_write cm d = d := by
  obtain ⟨hpc, hwe, hfe⟩ := hq
  unfold debug_write
  rw [hpc, hwe, hfe]
  rfl

/-- In a cycle without write back the debug write decides the registers. -/
theorem read_next_of_debug {s : RiscvCpu} (i : RiscvCpu.Input)
    (hw : (s.register_file_input i).write_enable = false ∨ s.decoded.rd_addr = 0#5) :
    (s.next i).register_file.read = (debug_write i.cm s.debug_state).x := by
  have hn : (s.next i).register_file = s.register_file.next (s.register_file_input i) := rfl
  have hno : ((s.register_file_input i).write_enable &&
      (s.register_file_input i).write_addr != 0#5) = false := by
    rcases hw with hw | hw
    · rw [hw, Bool.false_and]
    · have haddr : (s.register_file_input i).write_addr = 0#5 := hw
      rw [haddr]
      simp
  rw [hn, debug_write]
  by_cases hwe : (i.cm.cm_regfile_we && i.cm.cm_regfile_addr != 0#5) = true
  · have ha : i.cm.cm_regfile_addr ≠ 0#5 := by
      intro hc
      simp [hc] at hwe
    -- second in the priority of the write port
    rw [if_pos hwe]
    apply RiscvCpu.read_update ha
    unfold RegisterFile.next
    rw [hno]
    exact if_pos hwe
  · rw [if_neg hwe]
    by_cases hfe : (i.cm.cm_regfile_fault_enable && i.cm.cm_regfile_fault_addr != 0#5) = true
    · have ha : i.cm.cm_regfile_fault_addr ≠ 0#5 := by
        intro hc
        simp [hc] at hfe
      rw [if_pos hfe]
      apply RiscvCpu.read_update ha
      unfold RegisterFile.next
      rw [hno]
      exact (if_neg hwe).trans (if_pos hfe)
    · rw [if_neg hfe]
      apply RiscvCpu.read_congr
      unfold RegisterFile.next
      rw [hno]
      exact (if_neg hwe).trans (if_neg hfe)

/-- The control module writes in WRITE_ISSUE only. -/
theorem quiet_of_not_issue {s : CmAndCore} (h : s.soc_control.state ≠ .write_issue) :
    s.cm.quiet := by
  obtain ⟨hw, hf, hp⟩ := SocControl.enables_low h
  exact ⟨hp, hw, hf⟩

/-! ### What an issued write drives -/

/-- The control module carries out a write of `data` with a full strobe to
    `addr` in this cycle. -/
structure Issues (s : CmAndCore) (addr data : Word) : Prop where
  state : s.soc_control.state = .write_issue
  address : s.soc_control.latched_address = addr.extractLsb' 0 16
  data : s.soc_control.latched_write_data = data
  strobe : s.soc_control.latched_write_strobe = 0b1111#4

section issues
variable {s : CmAndCore} {addr data : Word} (h : s.Issues addr data)
include h

theorem Issues.pc_we (hsel : selector addr ≠ SUB_SEL_CTRL) : s.cm.cm_pc_we = false := by
  apply Bool.eq_false_of_not_eq_true
  intro hc
  exact hsel ((SocControl.issue_pc_write_enable h.state h.address).mp hc).1

theorem Issues.regfile_we (hsel : selector addr ≠ SUB_SEL_REGFILE) :
    s.cm.cm_regfile_we = false := by
  apply Bool.eq_false_of_not_eq_true
  intro hc
  exact hsel ((SocControl.issue_regfile_write_enable h.state h.address).mp hc).2.1

theorem Issues.fault_enable (hsel : selector addr ≠ SUB_SEL_FAULT) :
    s.cm.cm_regfile_fault_enable = false := by
  apply Bool.eq_false_of_not_eq_true
  intro hc
  exact hsel ((SocControl.issue_regfile_fault_enable h.state h.address).mp hc).2.1

/-- A write to the register window. -/
theorem Issues.debug_write_register {r : BitVec 5} (hr : r ≠ 0#5)
    (hsel : selector addr = SUB_SEL_REGFILE) (hoff : window_offset addr = register_offset r)
    (d : DebugState) :
    debug_write s.cm d = { d with x := RegisterFile.update d.x r data } := by
  have hpc := h.pc_we (by rw [hsel]; decide)
  have hwe : s.soc_control.regfile_write_enable = true :=
    (SocControl.issue_regfile_write_enable h.state h.address).mpr ⟨h.strobe, hsel, r, hr, hoff⟩
  have hvalid : s.soc_control.regfile_write_valid = true :=
    (SocControl.regfile_write_valid_iff h.address).mpr ⟨h.strobe, hsel, r, hr, hoff⟩
  have hselected : s.soc_control.regfile_selected = true := by
    unfold SocControl.regfile_selected
    rw [SocControl.sub_selector_eq h.address, hsel]
    rfl
  have haddr : s.cm.cm_regfile_addr = r := by
    show s.soc_control.regfile_addr = r
    unfold SocControl.regfile_addr
    rw [h.state]
    simp only [hselected, hvalid, Bool.and_self, if_true]
    rw [SocControl.regfile_sub_addr, SocControl.sub_addr_eq h.address, hoff,
      register_offset_field]
  have hdata : s.cm.cm_regfile_write_data = data := by
    show s.soc_control.regfile_write_data = data
    unfold SocControl.regfile_write_data
    rw [if_pos hwe, h.data]
  have hwe' : (s.cm.cm_regfile_we && s.cm.cm_regfile_addr != 0#5) = true := by
    rw [show s.cm.cm_regfile_we = true from hwe, haddr]
    simpa using hr
  unfold debug_write
  rw [hpc, if_pos hwe', haddr, hdata]
  rfl

/-- A write to the fault window. -/
theorem Issues.debug_write_fault {r : BitVec 5} {mode : BitVec 2} (hr : r ≠ 0#5)
    (hsel : selector addr = SUB_SEL_FAULT) (hoff : window_offset addr = fault_offset mode r)
    (d : DebugState) :
    debug_write s.cm d =
      { d with x := RegisterFile.update d.x r (fault_injector (d.x r) data mode) } := by
  have hpc := h.pc_we (by rw [hsel]; decide)
  have hwe := h.regfile_we (by rw [hsel]; decide)
  have hfe : s.soc_control.regfile_fault_enable = true :=
    (SocControl.issue_regfile_fault_enable h.state h.address).mpr
      ⟨h.strobe, hsel, mode, r, hr, hoff⟩
  obtain ⟨hfield, hmode⟩ := fault_offset_field mode r
  have haddr : s.cm.cm_regfile_fault_addr = r := by
    show s.soc_control.regfile_fault_addr = r
    rw [SocControl.regfile_fault_addr, if_pos hfe, SocControl.fault_reg_addr,
      SocControl.sub_addr_eq h.address, hoff, hfield]
  have hmode' : s.cm.cm_regfile_fault_mode = mode := by
    show s.soc_control.regfile_fault_mode = mode
    rw [SocControl.regfile_fault_mode, if_pos hfe, SocControl.fault_mode,
      SocControl.sub_addr_eq h.address, hoff, hmode]
  have hmask : s.cm.cm_regfile_fault_mask = data := by
    show s.soc_control.regfile_fault_mask = data
    unfold SocControl.regfile_fault_mask
    rw [if_pos hfe, h.data]
  have hfe' : (s.cm.cm_regfile_fault_enable && s.cm.cm_regfile_fault_addr != 0#5) = true := by
    rw [show s.cm.cm_regfile_fault_enable = true from hfe, haddr]
    simpa using hr
  rw [debug_write, hpc, hwe, Bool.false_and, if_neg Bool.false_ne_true, if_pos hfe', haddr, hmode',
    hmask]
  rfl

/-- A write to the PC register. -/
theorem Issues.debug_write_pc (hsel : selector addr = SUB_SEL_CTRL)
    (hoff : window_offset addr = CTRL_REG_PC) (d : DebugState) :
    debug_write s.cm d = { d with pc := data } := by
  have hpc : s.soc_control.pc_write_enable = true :=
    (SocControl.issue_pc_write_enable h.state h.address).mpr ⟨hsel, hoff⟩
  have hdata : s.cm.cm_pc_write_data = data := by
    show s.soc_control.pc_write_data = data
    unfold SocControl.pc_write_data
    rw [if_pos hpc, h.data]
  rw [debug_write, show s.cm.cm_pc_we = true from hpc, hdata,
    h.regfile_we (by rw [hsel]; decide), h.fault_enable (by rw [hsel]; decide)]
  rfl

end issues

/-! ### The halted core -/

/-- A halted core takes over the debug write and nothing else. -/
theorem halted_next {s : RiscvCpu} (h : s.At .waiting) {i : RiscvCpu.Input}
    (hst : i.cm.cm_pc_stall = true) :
    (s.next i).At .waiting ∧ (s.next i).debug_state = debug_write i.cm s.debug_state := by
  have hat := h.next i
  have hpc := h.pc_next i
  have htrans := h.pc_transaction i
  have hread := read_next_of_debug i (Or.inl (by rw [h.write_enable]; exact Bool.and_false _))
  rw [show Phase.next s.decoded i .waiting = .waiting from if_pos hst] at hat
  -- neither NEXT_PC nor a fetch competes with the write to the PC
  refine ⟨hat, ?_⟩
  have hpc' : (s.next i).pc = (debug_write i.cm s.debug_state).pc := by
    rw [hpc, if_neg (by decide), htrans]
    simp only [hst, Bool.not_true, Bool.false_and, Bool.true_and, Bool.false_eq_true, if_false]
    rfl
  rw [RiscvCpu.debug_state, hpc', hread]

/-- A halted core requests nothing from the memory. -/
theorem halted_port {s : RiscvCpu} (h : s.At .waiting) {i : RiscvCpu.Input}
    (hst : i.cm.cm_pc_stall = true) : s.m_axi i = Master.idle := by
  rw [h.m_axi, RiscvCpu.port, hst]
  rfl

/-- One cycle of a halted core under its control module. -/
theorem halted_step {s : CmAndCore} (h : s.cpu.At .waiting)
    (hst : s.soc_control.pc_stall = true) (i : Input) :
    (s.next i).cpu.At .waiting ∧
      (s.next i).cpu.debug_state = debug_write s.cm s.cpu.debug_state ∧
      s.m_axi i = Master.idle := by
  have hcm : (s.cpu_input i).cm.cm_pc_stall = true := hst
  obtain ⟨hat, hd⟩ := halted_next h hcm
  exact ⟨hat, hd, halted_port h hcm⟩

/-! ### The drained core -/

/-- Stalled, with a PC that waits and nothing under way. -/
structure Drained (s : CmAndCore) : Prop where
  pc_stall : s.soc_control.pc_stall = true
  pc_release_pending : s.cpu.pc_release_pending = true
  pc_stall_released : s.cpu.pc_stall_released = false
  arbiter : s.cpu.memory_arbiter.state = .idle

theorem drained_iff {s : CmAndCore} {p : Phase} (h : s.cpu.At p) :
    s.Drained ↔ p = .waiting ∧ s.soc_control.pc_stall = true := by
  obtain ⟨hp, hr, -, -, -, ha, -⟩ := h.fields
  constructor
  · intro hall
    obtain ⟨hst, hp', hr', ha'⟩ := hall
    rw [hp] at hp'
    rw [hr] at hr'
    refine ⟨?_, hst⟩
    -- a pending PC that is not released fits one phase only
    cases p <;> simp_all [Phase.flags]
  · rintro ⟨rfl, hst⟩
    exact ⟨hst, hp, hr, ha⟩

end CmAndCore

end RiscvWorker
