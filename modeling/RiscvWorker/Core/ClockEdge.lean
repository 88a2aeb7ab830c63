import RiscvWorker.Core.Phases

/-! # What a clock edge does to the data

  Phase by phase: what the core drives on its memory port, and which of the
  architectural registers and latches a clock edge changes. The control
  module's inputs are arbitrary; `CmPort.quiet` says that it writes nothing.
-/

namespace RiscvWorker

open AxiLite (Master Slave)

/-- The control module writes nothing in this cycle. -/
def CmPort.quiet (cm : CmPort) : Prop :=
  cm.cm_pc_we = false ∧ cm.cm_regfile_we = false ∧ cm.cm_regfile_fault_enable = false

namespace RiscvCpu

variable {s : RiscvCpu} {p : Phase}

/-! ### The memory port -/

/-- What the core drives on the memory port in phase `p`. -/
def port (s : RiscvCpu) (stall : Bool) : Phase → Master
  | .waiting =>
    { Master.idle with arvalid := !stall, araddr := if stall then 0#32 else s.pc }
  | .fetch_addr => { Master.idle with arvalid := true, araddr := s.pc }
  | .fetch_data | .load_data => { Master.idle with rready := true }
  | .load_addr => { Master.idle with arvalid := true, araddr := s.mem_addr }
  | .store_both =>
    { Master.idle with
      awvalid := true, awaddr := s.mem_addr
      wvalid := true, wdata := s.mem_write_data, wstrb := s.mem_write_strobe }
  | .store_addr => { Master.idle with awvalid := true, awaddr := s.mem_addr }
  | .store_data =>
    { Master.idle with wvalid := true, wdata := s.mem_write_data, wstrb := s.mem_write_strobe }
  | .store_resp => { Master.idle with bready := true }
  | .decoded | .alu_result | .mem_result | .next_pc => Master.idle

theorem At.m_axi (h : s.At p) (i : Input) : s.m_axi i = s.port i.cm.cm_pc_stall p := by
  obtain ⟨-, -, -, -, -, ha, -⟩ := h.fields
  have hv : (s.arbiter_input i).pc_valid = _ := h.pc_valid i
  have hr : (s.arbiter_input i).instruction_ready = true := rfl
  simp only [RiscvCpu.m_axi, MemoryArbiter.m_axi, MemoryArbiter.arvalid, MemoryArbiter.araddr,
    MemoryArbiter.rready, ha, hv, hr]
  cases p <;> cases i.cm.cm_pc_stall <;> simp [Phase.flags, port, Master.idle, arbiter_input]

/-! ### Registers and latches -/

theorem At.pc_next (h : s.At p) (i : Input) :
    (s.next i).pc =
      if p = .next_pc then s.next_pc
      else if s.pc_transaction i then s.pc
      else if i.cm.cm_pc_stall && i.cm.cm_pc_we then i.cm.cm_pc_write_data
      else s.pc := by
  have hn := h.next_pc_transaction
  simp [RiscvCpu.next, pc', hn]

theorem At.instruction_latched_next (h : s.At p) (i : Input) :
    (s.next i).instruction_latched =
      if p = .fetch_data ∧ i.m_axi.rvalid = true then i.m_axi.rdata
      else s.instruction_latched := by
  obtain ⟨-, -, -, -, -, ha, -⟩ := h.fields
  have hv := h.instruction_valid i
  simp only [RiscvCpu.next, hv, RiscvCpu.instruction, MemoryArbiter.instruction, ha]
  cases p <;> simp [Phase.flags, arbiter_input]

theorem At.load_data_next (h : s.At p) (i : Input) :
    (s.next i).memory_arbiter.load_data =
      if p = .load_data ∧ i.m_axi.rvalid = true then i.m_axi.rdata
      else s.memory_arbiter.load_data := by
  obtain ⟨-, -, -, -, -, ha, -⟩ := h.fields
  have hn := h.next_arbiter_state i
  simp only [RiscvCpu.next, MemoryArbiter.next, hn, ha]
  cases p <;> simp only [Phase.next] <;> (repeat' split) <;>
    simp_all [Phase.flags, arbiter_input]

/-- Write back happens in the last phase only. -/
theorem At.write_enable (h : s.At p) (i : Input) :
    (s.register_file_input i).write_enable = (s.decoded.do_write_back && p == .next_pc) := by
  have hn := h.next_pc_transaction
  unfold RiscvCpu.next_pc_transaction at hn
  simp only [register_file_input, Bool.and_assoc, hn]

/-! ### Frame conditions -/

section frames
variable {i : Input}

theorem At.decoded_next (h : s.At p) (hp : p ≠ .fetch_data) : (s.next i).decoded = s.decoded := by
  rw [RiscvCpu.decoded, h.instruction_latched_next, if_neg (fun hc => hp hc.1), RiscvCpu.decoded]

/-- Without a write of the control module only NEXT_PC changes the PC. -/
theorem At.pc_next_of_quiet (h : s.At p) (hq : i.cm.quiet) (hp : p ≠ .next_pc) :
    (s.next i).pc = s.pc := by
  rw [h.pc_next, if_neg hp, hq.1]
  -- a PC transaction rewrites the PC with itself
  simp

/-- Without a write of the control module only NEXT_PC changes a register. -/
theorem At.registers_next_of_quiet (h : s.At p) (hq : i.cm.quiet) (hp : p ≠ .next_pc) :
    (s.next i).register_file.registers = s.register_file.registers := by
  have hw : (s.register_file_input i).write_enable = false := by
    rw [h.write_enable]
    simp [hp]
  have he : (s.register_file_input i).extra_write_enable = false := hq.2.1
  have hf : (s.register_file_input i).fault_write_enable = false := hq.2.2
  simp [RiscvCpu.next, RegisterFile.next, hw, he, hf]

theorem read_congr {rf rf' : RegisterFile} (h : rf'.registers = rf.registers) :
    rf'.read = rf.read := by
  funext r
  unfold RegisterFile.read
  rw [h]

theorem read_update {rf rf' : RegisterFile} {a : BitVec 5} {v : Word} (ha : a ≠ 0#5)
    (h : rf'.registers = RegisterFile.update rf.registers a v) :
    rf'.read = RegisterFile.update rf.read a v := by
  funext r
  rw [RegisterFile.read, h, RegisterFile.update, RegisterFile.update]
  -- x0 reads as zero on both sides, since the write is not to x0
  by_cases hr : r = 0#5
  · have hne : r ≠ a := fun hc => ha (hc ▸ hr)
    rw [if_pos hr, if_neg hne, RegisterFile.read, if_pos hr]
  · rw [if_neg hr, RegisterFile.read, if_neg hr]

theorem At.read_next_of_quiet (h : s.At p) (hq : i.cm.quiet) (hp : p ≠ .next_pc) :
    (s.next i).register_file.read = s.register_file.read :=
  read_congr (h.registers_next_of_quiet hq hp)

end frames

/-! ### The access of a load or a store

  Address, strobe and data are not latched. They are the same in two cycles
  if the instruction and the registers it reads are. -/

theorem data_idempotent (latched a v : Word) (f3 : BitVec 3) :
    LoadStoreDecoder.data (LoadStoreDecoder.data latched a f3 v) a f3 v =
      LoadStoreDecoder.data latched a f3 v := by
  simp only [LoadStoreDecoder.data]
  -- the branches that assign nothing return the inner value
  repeat' split
  all_goals rfl

/-- Loads and stores add rs1 and the immediate. -/
theorem decode_use_mem {w : Word} (h : (instruction_decode w).use_mem = true) :
    (instruction_decode w).alu_src1_is_pc = false ∧
      (instruction_decode w).alu_src2_is_imm = true := by
  have hop : InstructionDecode.opcode w = OPCODE_LOAD ∨
      InstructionDecode.opcode w = OPCODE_STORE := by
    simpa [instruction_decode] using h
  rcases hop with hop | hop <;> simp [instruction_decode, hop, InstructionDecode.instr_type]

section access
variable {s' : RiscvCpu} (hd : s'.decoded = s.decoded)
include hd

theorem mem_addr_congr (h1 : s'.rs1 = s.rs1) : s'.mem_addr = s.mem_addr := by
  unfold mem_addr mem_addr_aux
  rw [hd, h1]

theorem alu_out_congr (hmem : s.decoded.use_mem = true) (h1 : s'.rs1 = s.rs1) :
    s'.alu_out = s.alu_out := by
  obtain ⟨hsrc1, hsrc2⟩ := decode_use_mem hmem
  rw [← RiscvCpu.decoded] at hsrc1 hsrc2
  unfold alu_out alu_src1 alu_src2
  rw [hd, h1, hsrc1, hsrc2]
  rfl

theorem mem_write_strobe_congr (hmem : s.decoded.use_mem = true) (h1 : s'.rs1 = s.rs1) :
    s'.mem_write_strobe = s.mem_write_strobe := by
  unfold mem_write_strobe
  rw [alu_out_congr hd hmem h1, hd]

theorem mem_write_data_congr (hmem : s.decoded.use_mem = true) (h1 : s'.rs1 = s.rs1)
    (h2 : s'.rs2 = s.rs2) (hl : s'.latched_data = s.mem_write_data) :
    s'.mem_write_data = s.mem_write_data := by
  unfold mem_write_data
  rw [hl, alu_out_congr hd hmem h1, hd, h2, mem_write_data, data_idempotent]

end access

end RiscvCpu

end RiscvWorker
