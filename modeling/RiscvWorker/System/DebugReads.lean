import RiscvWorker.Control.AxiSlave
import RiscvWorker.System.IsaRun
import RiscvWorker.System.Machine

/-! # Reading disturbs nothing

  A debugger may read the control registers and the register file of a core
  that runs. Two runs of the machine are compared cycle by cycle: as long as
  neither of them is asked to write, they differ only in the control module
  and in the register behind its port of the register file, which the core
  never reads. So every answer tells what the undisturbed run holds.
-/

namespace RiscvWorker

open AxiLite (Master MemorySlave)

namespace RiscvCpu

/-- The core without the register that only the debugger reads. -/
def unobserved (s : RiscvCpu) : RiscvCpu :=
  { s with register_file := { s.register_file with extra_read_data := 0#32 } }

/-- The inputs without what a quiet control module drives. -/
def Input.passive (i : Input) : Input where
  m_axi := i.m_axi
  cm :=
    { cm_pc_stall := i.cm.cm_pc_stall, cm_pc_we := false, cm_pc_write_data := 0#32
      cm_regfile_addr := 0#5, cm_regfile_we := false, cm_regfile_write_data := 0#32
      cm_regfile_fault_addr := 0#5, cm_regfile_fault_mode := 0#2, cm_regfile_fault_mask := 0#32
      cm_regfile_fault_enable := false }

section
variable {s s' : RiscvCpu} {i i' : Input}

/-- Under a quiet control module neither of the two shows. -/
theorem unobserved_next (hq : i.cm.quiet) :
    (s.next i).unobserved = (s.unobserved.next i.passive).unobserved := by
  obtain ⟨hp, hw, hf⟩ := hq
  have hpc : s.pc' i = s.unobserved.pc' i.passive := by
    show s.pc' i = s.pc' i.passive
    unfold pc'
    rw [hp, Bool.and_false, show i.passive.cm.cm_pc_we = false from rfl, Bool.and_false]
    rfl
  have hregs : (s.register_file.next (s.register_file_input i)).registers =
      (s.unobserved.register_file.next (s.unobserved.register_file_input i.passive)).registers := by
    have hw' : (s.register_file_input i).extra_write_enable = false := hw
    have hf' : (s.register_file_input i).fault_write_enable = false := hf
    simp only [RegisterFile.next, hw', hf', Bool.false_and]
    rfl
  simp only [unobserved, next, RiscvCpu.mk.injEq, RegisterFile.mk.injEq]
  exact ⟨hpc, rfl, rfl, rfl, rfl, rfl, rfl, ⟨hregs, trivial⟩, rfl, rfl, rfl, rfl⟩

theorem m_axi_unobserved : s.m_axi i = s.unobserved.m_axi i.passive := rfl

theorem cm_debug_vector_unobserved :
    s.cm_debug_vector i = s.unobserved.cm_debug_vector i.passive := rfl

end

end RiscvCpu

namespace SocControl

/-- No write is going on. -/
def reading (c : SocControl) : Prop :=
  c.state = .idle ∨ c.state = .read_issue ∨ c.state = .read_wait_done ∨ c.state = .read_resp

theorem reading.next {c : SocControl} (h : c.reading) {i : Input}
    (haw : i.s_axi.awvalid = false) : (c.next i).reading ∧ (c.next i).pc_stall = c.pc_stall := by
  have hissue : c.state ≠ .write_issue := by rcases h with h | h | h | h <;> rw [h] <;> decide
  have hdone : c.state ≠ .write_wait_done := by rcases h with h | h | h | h <;> rw [h] <;> decide
  refine ⟨?_, pc_stall_next i hissue hdone⟩
  show (c.next_state i = _ ∨ c.next_state i = _ ∨ c.next_state i = _ ∨ c.next_state i = _)
  unfold next_state op_done
  rcases h with h | h | h | h <;> simp [h, haw] <;> split <;> simp

end SocControl

namespace Machine

/-- The two machines differ only for the debugger. -/
structure Alike (s s' : Machine) : Prop where
  cpu : s.chip.cpu.unobserved = s'.chip.cpu.unobserved
  memory : s.memory = s'.memory
  stall : s.chip.soc_control.pc_stall = s'.chip.soc_control.pc_stall

variable {s s' : Machine} {i i' : Input}

theorem Alike.passive (h : Alike s s') (hchoice : i.choice = i'.choice) :
    (s.chip.cpu_input (s.chip_input i)).passive =
      (s'.chip.cpu_input (s'.chip_input i')).passive := by
  unfold RiscvCpu.Input.passive CmAndCore.cpu_input CmAndCore.cm chip_input
  rw [h.memory, h.stall, hchoice]

theorem Alike.arch (h : Alike s s') : s.arch = s'.arch := by
  have hcpu : s.chip.cpu.unobserved.arch s.memory.mem =
      s'.chip.cpu.unobserved.arch s'.memory.mem := by
    rw [h.cpu, h.memory]
  exact hcpu

theorem Alike.m_axi (h : Alike s s') (hchoice : i.choice = i'.choice) :
    s.m_axi i = s'.m_axi i' := by
  have hm : s.m_axi i = s.chip.cpu.unobserved.m_axi _ := RiscvCpu.m_axi_unobserved
  rw [hm, h.cpu, h.passive hchoice]
  rfl

theorem Alike.cm_debug_vector (h : Alike s s') (hchoice : i.choice = i'.choice) :
    s.chip.cpu.cm_debug_vector (s.chip.cpu_input (s.chip_input i)) =
      s'.chip.cpu.cm_debug_vector (s'.chip.cpu_input (s'.chip_input i')) := by
  rw [RiscvCpu.cm_debug_vector_unobserved, h.cpu, h.passive hchoice]
  rfl

theorem Alike.next (h : Alike s s') (hchoice : i.choice = i'.choice)
    (hr : s.chip.soc_control.reading) (hr' : s'.chip.soc_control.reading)
    (haw : i.s_axi.awvalid = false) (haw' : i'.s_axi.awvalid = false) :
    Alike (s.next i) (s'.next i') := by
  have hquiet : ∀ {s : Machine}, s.chip.soc_control.reading → s.chip.cm.quiet := by
    intro s hr
    apply CmAndCore.quiet_of_not_issue
    rcases hr with h | h | h | h <;> rw [h] <;> decide
  have hn : (s.next i).chip.cpu.unobserved = _ := RiscvCpu.unobserved_next (hquiet hr)
  have hn' : (s'.next i').chip.cpu.unobserved = _ := RiscvCpu.unobserved_next (hquiet hr')
  refine ⟨?_, ?_, ?_⟩
  · rw [hn, hn', h.cpu, h.passive hchoice]
  · show s.memory.next i.choice (s.m_axi i) = s'.memory.next i'.choice (s'.m_axi i')
    rw [h.memory, h.m_axi hchoice, hchoice]
  · have hst : (s.next i).chip.soc_control.pc_stall = s.chip.soc_control.pc_stall := (hr.next haw).2
    have hst' : (s'.next i').chip.soc_control.pc_stall = s'.chip.soc_control.pc_stall :=
      (hr'.next haw').2
    rw [hst, hst', h.stall]

/-! ### Two runs -/

/-- From cycle `n` on two runs differ only in what is read on the control
    port: the memory decides the same, and nothing is written. -/
structure OnlyReads (e e' : Lts.Execution Machine Input) (n : Nat) : Prop where
  step : ∀ k, e.states (k + 1) = (e.states k).next (e.labels k)
  step' : ∀ k, e'.states (k + 1) = (e'.states k).next (e'.labels k)
  alike : Alike (e.states n) (e'.states n)
  reading : (e.states n).chip.soc_control.reading
  reading' : (e'.states n).chip.soc_control.reading
  choice : ∀ k, n ≤ k → (e.labels k).choice = (e'.labels k).choice
  awvalid : ∀ k, n ≤ k → (e.labels k).s_axi.awvalid = false
  awvalid' : ∀ k, n ≤ k → (e'.labels k).s_axi.awvalid = false

section only_reads
variable {e e' : Lts.Execution Machine Input} {n : Nat} (h : OnlyReads e e' n)
include h

theorem OnlyReads.along {k : Nat} (hk : n ≤ k) :
    Alike (e.states k) (e'.states k) ∧ (e.states k).chip.soc_control.reading ∧
      (e'.states k).chip.soc_control.reading := by
  refine Lts.stretch_induction (P := fun k => Alike (e.states k) (e'.states k) ∧
    (e.states k).chip.soc_control.reading ∧ (e'.states k).chip.soc_control.reading) hk
    ⟨h.alike, h.reading, h.reading'⟩ ?_
  rintro k hk - ⟨halike, hr, hr'⟩
  rw [h.step k, h.step' k]
  exact ⟨halike.next (h.choice k hk) hr hr' (h.awvalid k hk) (h.awvalid' k hk),
    (hr.next (h.awvalid k hk)).1, (hr'.next (h.awvalid' k hk)).1⟩

/-- The register files behind the control port. -/
def register_files (e : Lts.Execution Machine Input) (k : Nat) : RegisterFile :=
  (e.states k).chip.cpu.register_file

/-- What can be read is the same. -/
theorem OnlyReads.source_value_eq {addr : Word} {k : Nat} (hk : n ≤ k) :
    SocControl.source_value (control_run e) (register_files e) addr k =
      SocControl.source_value (control_run e') (register_files e') addr k := by
  obtain ⟨halike, -, -⟩ := h.along hk
  have hpc := congrArg RiscvCpu.pc halike.cpu
  have hregs := congrArg (fun s => s.register_file.registers) halike.cpu
  have hvector : ((control_run e).labels k).core_debug_vector =
      ((control_run e').labels k).core_debug_vector :=
    halike.cm_debug_vector (h.choice k hk)
  have hstall : ((control_run e).states k).pc_stall = ((control_run e').states k).pc_stall :=
    halike.stall
  have hread : ((control_run e).labels k).pc_read_data = ((control_run e').labels k).pc_read_data :=
    hpc
  have hfile : (register_files e k).registers = (register_files e' k).registers := hregs
  unfold SocControl.source_value SocControl.control_value RegisterFile.read
  rw [hvector, hstall, hread, hfile]

end only_reads

/-- START, and then whatever the master does. -/
def started (master : Master) : Lts.Execution Machine Input :=
  .of_inputs next (boot CoreAndMemory.counter) fun k =>
    { s_axi := if k < 6 then .writing 0x60001004#32 1#32 0b1111#4 else master
      choice := MemorySlave.now_and_then 2 k }

theorem started_valid (master : Master) :
    (system CoreAndMemory.counter).valid_exec (started master) := ⟨rfl, fun _ => rfl⟩

theorem started_idle (master : Master) :
    ((started master).states 6).chip.soc_control.state = .idle := by
  have hs := control_run_step (started_valid master)
  have hstart : SocControl.WriteTransaction (control_run (started master)) 0 1 2 5 :=
    .of_fast_master hs rfl (fun _ _ hj => if_pos (by omega))
  exact hstart.idle_after hs

end Machine

end RiscvWorker
