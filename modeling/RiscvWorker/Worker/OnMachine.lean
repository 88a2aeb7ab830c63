import RiscvWorker.Worker.Model
import RiscvWorker.System.Accesses
import RiscvWorker.Firmware.Acceptance

/-! # The machine is a worker

  `Machine.Holds s w`: the settled machine `s` is the worker `w`. An access
  of the processing system that stands for a request then has the effect of
  that request at one moment between its first cycle and the end of the pause
  after it, and the machine is settled again.
-/

namespace RiscvWorker

open ByteMemory
open AxiLite (MemorySlave)
open CoreAndMemory (Tracks Linked PhaseRun Harmless Prompt)
open Firmware (Request apply_fault_mode)
open Rv32i (ArchState)

/-- The core in phase `p` with its memory is the worker `w`. -/
structure CoreAndMemory.Holds (c : CoreAndMemory) (p : Phase) (w : Worker) : Prop where
  tracks : Tracks c p w.state
  halted : w.running = false → p = .waiting
  sound : w.Sound

namespace CoreAndMemory

variable {c : CoreAndMemory} {p : Phase} {w : Worker}

theorem Tracks.linked {A : ArchState} (h : Tracks c p A) : Linked c p :=
  ⟨h.at_phase, _, _, h.memory⟩

theorem Tracks.reg {A : ArchState} (h : Tracks c p A) (r : BitVec 5) :
    A.reg r = c.cpu.register_file.read r := by
  have harch : c.cpu.arch A.mem = A := by
    unfold RiscvCpu.arch
    rw [h.pc, h.x]
  rw [← harch, RiscvCpu.arch_reg]

/-- A run from any state in which core and memory are in step. -/
theorem phase_run_of_linked {e : Lts.Execution CoreAndMemory Input}
    (hs : ∀ k, e.states (k + 1) = (e.states k).next (e.labels k)) (h : Linked (e.states 0) p) :
    ∃ ph, PhaseRun e ph ∧ ph 0 = p := by
  have hall : ∀ k, ∃ q, Linked (e.states k) q := by
    intro k
    induction k with
    | zero => exact ⟨p, h⟩
    | succ k ih =>
      obtain ⟨q, hq⟩ := ih
      rw [hs k]
      exact ⟨_, hq.next (e.labels k)⟩
  choose ph hph using hall
  refine ⟨ph, ⟨hph, hs, ?_⟩, (hph 0).at_phase.unique h.at_phase⟩
  intro k
  have hnext := (hph k).next (e.labels k)
  rw [← hs k] at hnext
  exact (hph (k + 1)).at_phase.unique hnext.at_phase

/-! ### The worker between the writes -/

section passes
variable {e : Lts.Execution CoreAndMemory Input} {ph : Nat → Phase} (hr : PhaseRun e ph)
  {t k : Nat} (htk : t ≤ k)
include hr htk

/-- Harmless cycles under an unchanged stall only let time pass. -/
theorem Holds.passes (h : Holds (e.states t) (ph t) w)
    (hq : ∀ j, t ≤ j → j < k → Harmless (e.labels j).cm)
    (hst : ∀ j, t ≤ j → j < k → (e.labels j).cm.cm_pc_stall = !w.running) :
    ∃ w', w.Later w' ∧ Holds (e.states k) (ph k) w' := by
  cases hrun : w.running with
  | false =>
    have hw := h.halted hrun
    have hst' : ∀ j, t ≤ j → j < k → (e.labels j).cm.cm_pc_stall = true := by
      intro j htj hjk
      rw [hst j htj hjk, hrun]
      rfl
    exact ⟨w, .refl w, hr.frozen htk h.tracks hw hst' hq, fun _ => hr.stays_waiting htk hw hst',
      h.sound⟩
  | true =>
    obtain ⟨A, hreach, htracks⟩ := hr.runs htk h.tracks (h.sound hrun) hq
    have hlater := Worker.later_of_reaches hrun hreach
    refine ⟨_, hlater, htracks, ?_, hlater.sound h.sound⟩
    intro hhalted
    exact absurd (hrun.symm.trans hhalted) (by decide)

/-- A worker that is stalled for long enough is halted: what it has run by
    then is what it ran before. -/
theorem Holds.comes_to_rest {D : Nat} (hprompt : Prompt D e) (h : Holds (e.states t) (ph t) w)
    (hq : ∀ j, t ≤ j → j < k → Harmless (e.labels j).cm)
    (hst : ∀ j, t ≤ j → j < k → (e.labels j).cm.cm_pc_stall = true)
    (hpause : t + (5 * D + 8) ≤ k) :
    ∃ w', w.Later w' ∧ Holds (e.states k) (ph k) { w' with running := false } := by
  have hw := hr.rests htk hprompt hst hpause
  cases hrun : w.running with
  | false =>
    exact ⟨w, .refl w, hr.frozen htk h.tracks (h.halted hrun) hst hq, fun _ => hw,
      Worker.sound_of_halted rfl⟩
  | true =>
    obtain ⟨A, hreach, htracks⟩ := hr.runs htk h.tracks (h.sound hrun) hq
    exact ⟨_, Worker.later_of_reaches hrun hreach, htracks, fun _ => hw,
      Worker.sound_of_halted rfl⟩

end passes

/-! ### Debug writes -/

/-- The architectural state after a debug write. -/
def debugged (cm : CmPort) (A : ArchState) : ArchState where
  pc := (CmAndCore.debug_write cm ⟨A.pc, A.x⟩).pc
  x := (CmAndCore.debug_write cm ⟨A.pc, A.x⟩).x
  mem := A.mem

/-- A halted core takes over a debug write, and its memory does not notice. -/
theorem Tracks.debugged {s : CoreAndMemory} {i : Input} {A : ArchState} (h : Tracks s .waiting A)
    (hst : i.cm.cm_pc_stall = true) : Tracks (s.next i) .waiting (debugged i.cm A) := by
  have hcm : (s.cpu_input i).cm.cm_pc_stall = true := hst
  obtain ⟨hat, hdebug⟩ := CmAndCore.halted_next h.at_phase hcm
  have hstate : s.cpu.debug_state = ⟨A.pc, A.x⟩ := by
    unfold RiscvCpu.debug_state
    rw [h.pc, h.x]
  have hmem : s.memory = MemorySlave.idle A.mem := h.memory
  have hport : s.m_axi i = AxiLite.Master.idle := CmAndCore.halted_port h.at_phase hcm
  rw [hstate] at hdebug
  refine ⟨hat, congrArg CmAndCore.DebugState.pc hdebug, congrArg CmAndCore.DebugState.x hdebug,
    by simp [Phase.is_fetched], by simp [Phase.is_executed], ?_⟩
  show s.memory.next i.choice (s.m_axi i) = MemorySlave.idle A.mem
  rw [hmem, hport]
  exact MemorySlave.idle_next rfl rfl rfl

end CoreAndMemory

/-! ### The addresses of the requests -/

namespace Firmware

variable {H : Type}

/-- Where a control register is. -/
theorem control_window {b : Board H}
    (hbase : b.XPAR_RISCV_MOD_NAME_BASEADDR.extractLsb' 0 16 = 0#16) (reg : Word)
    (hreg : reg ∈ [CTRL_REG_START, CTRL_REG_STOP, CTRL_REG_STEP, CTRL_REG_PC]) :
    selector (b.control reg) = SUB_SEL_CTRL ∧
      window_offset (b.control reg) = reg.extractLsb' 0 12 := by
  unfold Board.control
  rw [selector_base hbase, window_offset_base hbase]
  simp only [List.mem_cons, List.not_mem_nil, or_false] at hreg
  rcases hreg with rfl | rfl | rfl | rfl <;> exact ⟨by decide, by decide⟩

/-- The access of a request to the control module. -/
def Request.control_access (b : Board H) : Request → Option Access
  | .start => some (.out32 (b.control CTRL_REG_START) 1#32)
  | .stop => some (.out32 (b.control CTRL_REG_STOP) 1#32)
  | .step => some (.out32 (b.control CTRL_REG_STEP) 1#32)
  | .get_pc => some (.in32 (b.control CTRL_REG_PC))
  | .set_pc pc => some (.out32 (b.control CTRL_REG_PC) pc)
  | .get_reg reg => some (.in32 (b.regfile reg))
  | .set_reg reg value => some (.out32 (b.regfile reg) value)
  | .fault_reg reg mode mask => some (.out32 (b.fault mode reg) mask)
  | _ => none

end Firmware

namespace Machine

/-- The settled machine is the worker `w`. -/
structure Holds (s : Machine) (w : Worker) : Prop where
  free : s.chip.soc_control.state = .idle
  stall : s.chip.soc_control.pc_stall = !w.running
  core : ∃ p, s.core.Holds p w

/-- The value that an access returns. -/
def answer_value (a : Firmware.Access) (s : Machine) : Option Word :=
  match a with
  | .out32 _ _ => none
  | .in32 _ => some s.chip.s_axi.rdata

variable {D : Nat} {e : Lts.Execution Machine Input} {tb T : Nat} {w : Worker}

/-- A write that changes neither the PC nor a register of a halted core. -/
theorem issues_harmless {s : Machine} {addr data : Word} (h : s.chip.Issues addr data)
    (hsel : selector addr = SUB_SEL_CTRL)
    (hoff : window_offset addr = CTRL_REG_PC → s.chip.soc_control.pc_stall = false) :
    Harmless s.chip.cm where
  pc := by
    intro hst
    apply Bool.eq_false_of_not_eq_true
    intro hc
    have hpc := ((SocControl.issue_pc_write_enable h.state h.address).mp hc).2
    have hst' : s.chip.soc_control.pc_stall = true := hst
    rw [hoff hpc] at hst'
    simp at hst'
  registers := h.regfile_we (by rw [hsel]; decide)
  fault := h.fault_enable (by rw [hsel]; decide)

/-- The run of the core within an access. -/
theorem AccessRun.phases {a : Firmware.Access} (h : AccessRun D e a tb T)
    (hw : Holds (e.states 0) w) :
    ∃ ph, PhaseRun (core_run e) ph ∧ CoreAndMemory.Holds ((core_run e).states 0) (ph 0) w := by
  obtain ⟨p, hp⟩ := hw.core
  have hs : ∀ k, (core_run e).states (k + 1) =
      ((core_run e).states k).next ((core_run e).labels k) := by
    intro k
    show (⟨(e.states (k + 1)).chip.cpu, (e.states (k + 1)).memory⟩ : CoreAndMemory) = _
    rw [h.step k]
    rfl
  obtain ⟨ph, hr, rfl⟩ := CoreAndMemory.phase_run_of_linked hs (p := p) hp.tracks.linked
  exact ⟨ph, hr, hp⟩

/-- A cycle in which nothing is issued. -/
theorem harmless_of_not_issue {k : Nat}
    (h : (e.states k).chip.soc_control.state ≠ .write_issue) :
    Harmless ((core_run e).labels k).cm :=
  CoreAndMemory.harmless_of_quiet (CmAndCore.quiet_of_not_issue h)

section written
variable {addr data : Word} {k : Nat} (h : Written e addr data k T)
include h

/-- No cycle of such a write changes the PC or a register by itself. -/
theorem Written.harmless (hsel : selector addr = SUB_SEL_CTRL)
    (hoff : window_offset addr = CTRL_REG_PC →
      (e.states k).chip.soc_control.pc_stall = false) :
    ∀ j, j < T → Harmless ((core_run e).labels j).cm := by
  intro j hj
  by_cases heq : j = k
  · rw [heq]
    exact issues_harmless h.issues hsel hoff
  · exact harmless_of_not_issue (h.only j hj heq)

/-- The stall after a write other than a STEP. -/
theorem Written.stall_after
    (hstep : ¬ (selector addr = SUB_SEL_CTRL ∧ window_offset addr = CTRL_REG_STEP)) :
    ∀ j, k + 1 ≤ j → j ≤ T → (e.states j).chip.soc_control.pc_stall =
      SocControl.issued_stall (e.states 0).chip.soc_control.pc_stall addr := by
  intro j hkj hjT
  by_cases heq : j = k + 1
  · rw [heq]
    exact h.steady hstep
  · exact h.after j (by omega) hjT

end written

/-! ### Reads -/

section reads
variable {addr : Word} (h : AccessRun D e (.in32 addr) tb T) (hw : Holds (e.states 0) w)
include h hw

/-- A read takes its value at one moment. -/
theorem AccessRun.reads : ∃ w₁ w', w.Later w₁ ∧ w₁.Later w' ∧ Holds (e.states T) w' ∧
    w₁.state.pc = (e.states 1).chip.cpu.pc ∧
    ∀ r, w₁.state.reg r = (e.states 1).chip.cpu.register_file.read r := by
  have hro := h.read_only
  have hlate := h.late
  obtain ⟨ph, hr, hcore⟩ := h.phases hw
  have hst : ∀ j, j < T → ((core_run e).labels j).cm.cm_pc_stall = !w.running := by
    intro j hj
    exact (hro.stall j (Nat.le_of_lt hj)).trans hw.stall
  have hq : ∀ j, j < T → Harmless ((core_run e).labels j).cm :=
    fun j hj => harmless_of_not_issue (hro.only j hj)
  unfold pause at hlate
  -- the value is taken in cycle 1, the rest of the access follows
  obtain ⟨w₁, hlater, hcore₁⟩ := hcore.passes hr (Nat.zero_le 1)
    (fun j _ hj => hq j (by omega)) (fun j _ hj => hst j (by omega))
  obtain ⟨w', hlater', hcore'⟩ := hcore₁.passes hr (k := T) (by omega)
    (fun j _ hj => hq j hj) (fun j _ hj => (hst j hj).trans (by rw [hlater.1]))
  refine ⟨w₁, w', hlater, hlater', ⟨hro.free, ?_, ph T, hcore'⟩, hcore₁.tracks.pc.symm,
    hcore₁.tracks.reg⟩
  rw [hro.stall T (Nat.le_refl T), hw.stall, hlater'.1, hlater.1]

end reads

section requests
variable {H : Type} {b : Firmware.Board H} {bram : Word}
  (hbase : b.XPAR_RISCV_MOD_NAME_BASEADDR.extractLsb' 0 16 = 0#16)
include hbase

theorem AccessRun.get_pc
    (h : AccessRun D e (.in32 (b.control Firmware.CTRL_REG_PC)) tb T)
    (hw : Holds (e.states 0) w) :
    ∃ w', Worker.Serves bram .get_pc w (some (e.states tb).chip.s_axi.rdata) w' ∧
      Holds (e.states T) w' := by
  obtain ⟨w₁, w', hlater, hlater', hholds, hpc, -⟩ := h.reads hw
  obtain ⟨hsel, hoff⟩ := Firmware.control_window hbase Firmware.CTRL_REG_PC (by decide)
  have hvalue := h.value (Or.inl ⟨hsel, by rw [hoff]; exact Or.inr (Or.inr (Or.inl rfl))⟩)
  rw [if_pos hsel, hoff] at hvalue
  refine ⟨w', ⟨w₁, w₁, hlater, ?_, hlater'⟩, hholds⟩
  rw [hvalue, Worker.serve, hpc]
  rfl

theorem AccessRun.get_reg {reg : BitVec 5}
    (h : AccessRun D e (.in32 (b.regfile reg)) tb T)
    (hw : Holds (e.states 0) w) :
    ∃ w', Worker.Serves bram (.get_reg reg) w (some (e.states tb).chip.s_axi.rdata) w' ∧
      Holds (e.states T) w' := by
  obtain ⟨w₁, w', hlater, hlater', hholds, -, hreg⟩ := h.reads hw
  obtain ⟨hsel, hoff⟩ := Firmware.regfile_window hbase reg
  have hvalue := h.value (Or.inr ⟨hsel, reg, hoff⟩)
  rw [hsel, if_neg (by decide), SocControl.register_field, hoff, register_offset_field] at hvalue
  refine ⟨w', ⟨w₁, w₁, hlater, ?_, hlater'⟩, hholds⟩
  rw [hvalue, Worker.serve, hreg]

/-! ### START, STOP and STEP -/

theorem AccessRun.start {data : Word} (h : AccessRun D e
      (.out32 (b.control Firmware.CTRL_REG_START) data) tb T)
    (hw : Holds (e.states 0) w) (hpermits : Worker.Permits bram .start w) :
    ∃ w', Worker.Serves bram .start w none w' ∧ Holds (e.states T) w' := by
  obtain ⟨k, hkT, hwrite⟩ := h.written
  obtain ⟨ph, hr, hcore⟩ := h.phases hw
  obtain ⟨hsel, hoff⟩ := Firmware.control_window hbase Firmware.CTRL_REG_START (by decide)
  have hq := hwrite.harmless hsel (fun hc => by rw [hoff] at hc; exact absurd hc (by decide))
  have hlow := hwrite.stall_after (fun hstep => by
    rw [hoff] at hstep
    exact absurd hstep.2 (by decide))
  rw [SocControl.issued_stall, if_pos hsel, hoff, if_pos (by decide)] at hlow
  -- the worker as it is when the stall falls, and what it runs from there
  obtain ⟨w₁, hlater, hcore₁⟩ := hcore.passes hr (k := k + 1) (Nat.zero_le _)
    (fun j _ hj => hq j (by omega))
    (fun j _ hj => (hwrite.before j (Nat.lt_succ_iff.mp hj)).trans hw.stall)
  obtain ⟨value, w₂, hserve, hsound⟩ := hpermits w₁ hlater
  obtain ⟨rfl, rfl⟩ : none = value ∧ { w₁ with running := true } = w₂ := by
    simpa [Worker.serve] using hserve
  have hcore₂ : CoreAndMemory.Holds ((core_run e).states (k + 1)) (ph (k + 1))
      { w₁ with running := true } :=
    ⟨hcore₁.tracks, fun hc => absurd hc (by simp), hsound⟩
  obtain ⟨w', hlater', hcore'⟩ := hcore₂.passes hr (k := T) (by omega)
    (fun j _ hj => hq j hj) (fun j hkj hj => hlow j hkj (by omega))
  refine ⟨w', ⟨w₁, _, hlater, hserve, hlater'⟩, hwrite.free, ?_, ph T, hcore'⟩
  rw [hlow T (by omega) (Nat.le_refl T), hlater'.1]
  rfl

theorem AccessRun.stop {data : Word} (h : AccessRun D e
      (.out32 (b.control Firmware.CTRL_REG_STOP) data) tb T)
    (hw : Holds (e.states 0) w) :
    ∃ w', Worker.Serves bram .stop w none w' ∧ Holds (e.states T) w' := by
  obtain ⟨k, hkT, hwrite⟩ := h.written
  obtain ⟨ph, hr, hcore⟩ := h.phases hw
  obtain ⟨hsel, hoff⟩ := Firmware.control_window hbase Firmware.CTRL_REG_STOP (by decide)
  have hq := hwrite.harmless hsel (fun hc => by rw [hoff] at hc; exact absurd hc (by decide))
  have hhigh := hwrite.stall_after (fun hstep => by
    rw [hoff] at hstep
    exact absurd hstep.2 (by decide))
  rw [SocControl.issued_stall, if_pos hsel, hoff, if_neg (by decide), if_pos (by decide)] at hhigh
  unfold pause at hkT
  -- the worker goes on until the stall rises, and then finishes its instruction
  obtain ⟨w₁, hlater, hcore₁⟩ := hcore.passes hr (k := k + 1) (Nat.zero_le _)
    (fun j _ hj => hq j (by omega))
    (fun j _ hj => (hwrite.before j (Nat.lt_succ_iff.mp hj)).trans hw.stall)
  obtain ⟨w₂, hlater', hcore₂⟩ := hcore₁.comes_to_rest hr (k := T) (by omega) h.prompt
    (fun j _ hj => hq j hj) (fun j hkj hj => hhigh j hkj (Nat.le_of_lt hj)) (by omega)
  exact ⟨_, ⟨w₂, _, hlater.trans hlater', rfl, .refl _⟩,
    hwrite.free, hhigh T (by omega) (Nat.le_refl T), ph T, hcore₂⟩

theorem AccessRun.step_request {data : Word} (h : AccessRun D e
      (.out32 (b.control Firmware.CTRL_REG_STEP) data) tb T)
    (hw : Holds (e.states 0) w) (hpermits : Worker.Permits bram .step w) :
    ∃ w', Worker.Serves bram .step w none w' ∧ Holds (e.states T) w' := by
  obtain ⟨k, hkT, hwrite⟩ := h.written
  obtain ⟨ph, hr, hcore⟩ := h.phases hw
  obtain ⟨hsel, hoff⟩ := Firmware.control_window hbase Firmware.CTRL_REG_STEP (by decide)
  have hq := hwrite.harmless hsel (fun hc => by rw [hoff] at hc; exact absurd hc (by decide))
  have hlow := hwrite.pulse hsel hoff
  have hhigh := hwrite.after
  rw [SocControl.issued_stall, if_pos hsel, hoff, if_neg (by decide), if_neg (by decide),
    if_pos (by decide)] at hhigh
  unfold pause at hkT
  obtain ⟨w₁, hlater, hcore₁⟩ := hcore.passes hr (k := k + 1) (Nat.zero_le _)
    (fun j _ hj => hq j (by omega))
    (fun j _ hj => (hwrite.before j (Nat.lt_succ_iff.mp hj)).trans hw.stall)
  have hend := hhigh T (by omega) (Nat.le_refl T)
  cases hrun : w₁.running with
  | false =>
    -- one instruction is released and retires
    obtain ⟨value, w₂, hserve, -⟩ := hpermits w₁ hlater
    have hstep := hserve
    rw [Worker.serve, hrun, if_neg Bool.false_ne_true] at hstep
    obtain ⟨A, hA, heq⟩ := Option.map_eq_some_iff.mp hstep
    obtain ⟨rfl, rfl⟩ := Prod.mk.inj heq
    obtain ⟨htracks, hw'⟩ := hr.steps_once h.prompt hcore₁.tracks (hcore₁.halted hrun) hlow
      (fun j hkj hj => hhigh j (by omega) (Nat.le_of_lt hj)) (fun j _ hj => hq j hj)
      (by omega) hA
    exact ⟨_, ⟨w₁, _, hlater, hserve, .refl _⟩, hwrite.free, hend, ph T, htracks,
      fun _ => hw', Worker.sound_of_halted rfl⟩
  | true =>
    -- the pulse ends with the stall high
    obtain ⟨w₂, hlater', hcore₂⟩ := hcore₁.passes hr (k := k + 2) (by omega)
      (fun j _ hj => hq j (by omega)) (fun j hkj hj => by
        obtain rfl : j = k + 1 := by omega
        rw [hrun]
        exact hlow)
    obtain ⟨w₃, hlater'', hcore₃⟩ := hcore₂.comes_to_rest hr (k := T) (by omega) h.prompt
      (fun j _ hj => hq j hj) (fun j hkj hj => hhigh j hkj (Nat.le_of_lt hj)) (by omega)
    refine ⟨_, ⟨w₃, { w₃ with running := false }, (hlater.trans hlater').trans hlater'', ?_,
      .refl _⟩, hwrite.free, hend, ph T, hcore₃⟩
    have hrun₃ : w₃.running = true := by rw [hlater''.1, hlater'.1, hrun]
    rw [Worker.serve, if_pos hrun₃]

/-! ### Debug writes -/

omit hbase in
/-- A write that leaves the stall alone is taken over by a halted worker. -/
theorem AccessRun.debugs {addr data : Word} (h : AccessRun D e (.out32 addr data) tb T)
    (hw : Holds (e.states 0) w) (hrun : w.running = false)
    (hstall : SocControl.issued_stall true addr = true)
    (hstep : ¬ (selector addr = SUB_SEL_CTRL ∧ window_offset addr = CTRL_REG_STEP)) :
    ∃ k, (e.states k).chip.Issues addr data ∧
      Holds (e.states T) ⟨false, CoreAndMemory.debugged (e.states k).chip.cm w.state⟩ := by
  obtain ⟨k, hkT, hwrite⟩ := h.written
  obtain ⟨ph, hr, hcore⟩ := h.phases hw
  have hst : ∀ j, j ≤ T → (e.states j).chip.soc_control.pc_stall = true := by
    intro j hjT
    have h0 : (e.states 0).chip.soc_control.pc_stall = true := by rw [hw.stall, hrun]; rfl
    by_cases hj : j ≤ k
    · exact (hwrite.before j hj).trans h0
    · rw [hwrite.stall_after hstep j (by omega) hjT, h0, hstall]
  have hq : ∀ j, j < T → j ≠ k → Harmless ((core_run e).labels j).cm :=
    fun j hj hne => harmless_of_not_issue (hwrite.only j hj hne)
  refine ⟨k, hwrite.issues, ?_⟩
  -- the same state up to the write, and its result after it
  have hwk := hr.stays_waiting (Nat.zero_le k) (hcore.halted hrun)
    (fun j _ hj => hst j (by omega))
  have hbefore := hr.frozen (Nat.zero_le k) hcore.tracks (hcore.halted hrun)
    (fun j _ hj => hst j (by omega)) (fun j _ hj => hq j (by omega) (by omega))
  rw [hwk] at hbefore
  have hstk : ((core_run e).labels k).cm.cm_pc_stall = true := hst k (by omega)
  have hwk' : ph (k + 1) = .waiting := hr.stays_waiting (Nat.zero_le _) (hcore.halted hrun)
    (fun j _ hj => hst j (by omega))
  have hwritten := hbefore.debugged hstk
  rw [← hr.step k, ← hwk'] at hwritten
  have hafter := hr.frozen (k := T) (by omega) hwritten hwk'
    (fun j _ hj => hst j (Nat.le_of_lt hj)) (fun j hkj hj => hq j hj (by omega))
  have hwT := hr.stays_waiting (k := T) (by omega) hwk' (fun j _ hj => hst j (Nat.le_of_lt hj))
  exact ⟨hwrite.free, hst T (Nat.le_refl T), ph T, hafter, fun _ => hwT,
    Worker.sound_of_halted rfl⟩

theorem AccessRun.set_pc {pc : Word} (h : AccessRun D e
      (.out32 (b.control Firmware.CTRL_REG_PC) pc) tb T)
    (hw : Holds (e.states 0) w) :
    ∃ w', Worker.Serves bram (.set_pc pc) w none w' ∧ Holds (e.states T) w' := by
  obtain ⟨hsel, hoff⟩ := Firmware.control_window hbase Firmware.CTRL_REG_PC (by decide)
  have hstep : ¬ (selector (b.control Firmware.CTRL_REG_PC) = SUB_SEL_CTRL ∧
      window_offset (b.control Firmware.CTRL_REG_PC) = CTRL_REG_STEP) := by
    rw [hoff]
    exact fun hc => absurd hc.2 (by decide)
  have hsame : ∀ stall, SocControl.issued_stall stall
      (b.control Firmware.CTRL_REG_PC) = stall := by
    intro stall
    rw [SocControl.issued_stall, if_pos hsel, hoff]
    rfl
  cases hrun : w.running with
  | false =>
    obtain ⟨k, hissues, hholds⟩ := h.debugs hw hrun (hsame true) hstep
    refine ⟨_, ⟨w, _, .refl w, ?_, .refl _⟩, hholds⟩
    rw [CoreAndMemory.debugged, hissues.debug_write_pc hsel hoff, Worker.serve, hrun]
    rfl
  | true =>
    -- the PC of a running core is not for the debugger
    obtain ⟨k, hkT, hwrite⟩ := h.written
    obtain ⟨ph, hr, hcore⟩ := h.phases hw
    have hst : ∀ j, j ≤ T → (e.states j).chip.soc_control.pc_stall = false := by
      intro j hjT
      have h0 : (e.states 0).chip.soc_control.pc_stall = false := by rw [hw.stall, hrun]; rfl
      by_cases hj : j ≤ k
      · exact (hwrite.before j hj).trans h0
      · rw [hwrite.stall_after hstep j (by omega) hjT, h0, hsame]
    have hq := hwrite.harmless hsel (fun _ => hst k (by omega))
    obtain ⟨w', hlater, hcore'⟩ := hcore.passes hr (Nat.zero_le T) (fun j _ hj => hq j hj)
      (fun j _ hj => (hst j (Nat.le_of_lt hj)).trans (by rw [hrun]; rfl))
    refine ⟨w', ⟨w, w, .refl w, ?_, hlater⟩, hwrite.free, ?_, ph T, hcore'⟩
    · rw [Worker.serve, hrun]
      rfl
    · rw [hst T (Nat.le_refl T), hlater.1, hrun]
      rfl

omit hbase in
/-- The windows of the register file have nothing to do with the stall. -/
theorem stall_of_other {addr : Word} (hsel : selector addr ≠ SUB_SEL_CTRL) :
    SocControl.issued_stall true addr = true ∧
      ¬ (selector addr = SUB_SEL_CTRL ∧ window_offset addr = CTRL_REG_STEP) :=
  ⟨if_neg hsel, fun hc => hsel hc.1⟩

theorem AccessRun.set_reg {reg : BitVec 5} {value : Word}
    (h : AccessRun D e (.out32 (b.regfile reg) value) tb T)
    (hw : Holds (e.states 0) w) (hpermits : Worker.Permits bram (.set_reg reg value) w) :
    ∃ w', Worker.Serves bram (.set_reg reg value) w none w' ∧ Holds (e.states T) w' := by
  obtain ⟨hsel, hoff⟩ := Firmware.regfile_window hbase reg
  obtain ⟨_, _, hserve, -⟩ := hpermits w (.refl w)
  obtain ⟨w', hwith, -⟩ := Option.map_eq_some_iff.mp hserve
  obtain ⟨hrun, hreg⟩ := Worker.halted_of_with_reg hwith
  obtain ⟨hstall, hstep⟩ := @stall_of_other (b.regfile reg)
    (by rw [hsel]; decide)
  obtain ⟨k, hissues, hholds⟩ := h.debugs hw hrun hstall hstep
  refine ⟨_, ⟨w, _, .refl w, ?_, .refl _⟩, hholds⟩
  rw [CoreAndMemory.debugged, hissues.debug_write_register hreg hsel hoff, Worker.serve,
    Worker.with_reg_eq hrun hreg, ArchState.set_reg, if_neg hreg]
  rfl

theorem AccessRun.fault_reg {reg : BitVec 5} {mode : Firmware.FaultMode} {mask : Word}
    (h : AccessRun D e
      (.out32 (b.fault mode reg) mask) tb T)
    (hw : Holds (e.states 0) w) (hpermits : Worker.Permits bram (.fault_reg reg mode mask) w) :
    ∃ w', Worker.Serves bram (.fault_reg reg mode mask) w none w' ∧ Holds (e.states T) w' := by
  obtain ⟨hsel, hoff⟩ := Firmware.fault_window hbase mode reg
  obtain ⟨_, _, hserve, -⟩ := hpermits w (.refl w)
  obtain ⟨w', hwith, -⟩ := Option.map_eq_some_iff.mp hserve
  obtain ⟨hrun, hreg⟩ := Worker.halted_of_with_reg hwith
  obtain ⟨hstall, hstep⟩ :=
    @stall_of_other (b.fault mode reg)
      (by rw [hsel]; decide)
  obtain ⟨k, hissues, hholds⟩ := h.debugs hw hrun hstall hstep
  refine ⟨_, ⟨w, _, .refl w, ?_, .refl _⟩, hholds⟩
  -- the injector of the register file computes what the firmware does
  have hvalue : fault_injector (w.state.x reg) mask (mode.value.setWidth 2) =
      apply_fault_mode (w.state.reg reg) mode.value mask := by
    rw [Firmware.fault_injector_eq, ArchState.reg, if_neg hreg]
  rw [CoreAndMemory.debugged, hissues.debug_write_fault hreg hsel hoff, Worker.serve,
    Worker.with_reg_eq hrun hreg, ArchState.set_reg, if_neg hreg, ← hvalue]
  rfl

/-- Whatever request the access stands for, it is served. -/
theorem AccessRun.serves {r : Request} {a : Firmware.Access}
    (ha : r.control_access b = some a) (h : AccessRun D e a tb T)
    (hw : Holds (e.states 0) w) (hpermits : Worker.Permits bram r w) :
    ∃ w', Worker.Serves bram r w (answer_value a (e.states tb)) w' ∧ Holds (e.states T) w' := by
  cases r with
  | start =>
    cases ha
    exact h.start hbase hw hpermits
  | stop =>
    cases ha
    exact h.stop hbase hw
  | step =>
    cases ha
    exact h.step_request hbase hw hpermits
  | get_pc =>
    cases ha
    exact h.get_pc hbase hw
  | set_pc pc =>
    cases ha
    exact h.set_pc hbase hw
  | get_reg reg =>
    cases ha
    exact h.get_reg hbase hw
  | set_reg reg value =>
    cases ha
    exact h.set_reg hbase hw hpermits
  | fault_reg reg mode mask =>
    cases ha
    exact h.fault_reg hbase hw hpermits
  | protocol_version => cases ha
  | read_word addr => cases ha
  | write_word addr value => cases ha
  | fault_mem addr mode mask => cases ha

end requests

end Machine

end RiscvWorker
