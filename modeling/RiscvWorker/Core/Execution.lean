import RiscvWorker.Core.Decoding
import RiscvWorker.Core.ByteLanes
import RiscvWorker.Core.ClockEdge

/-! # The datapath executes the instruction

  The combinational datapath between the instruction register and the
  write-back multiplexer, compared with `Rv32i.exec`: for every decodable
  instruction within the supported fragment, `next_pc`, the written register
  and the strobed store are the effect of that instruction on the
  architectural state the core holds.
-/

namespace RiscvWorker

open ByteMemory
open Rv32i (Instr ArchState BranchOp LoadOp StoreOp ImmOp RegOp rd funct3 imm_i imm_s
  imm_b imm_j exec aligned)

namespace RiscvCpu

variable (s : RiscvCpu) (m : Memory)

/-! ### The effect of the latched instruction -/

/-- The architectural state of the core over the memory `m`. -/
def arch : ArchState where
  pc := s.pc
  x := s.register_file.read
  mem := m

/-- The registers after write back. -/
def written_back : BitVec 5 → Word :=
  if s.decoded.do_write_back && s.decoded.rd_addr != 0#5 then
    RegisterFile.update s.register_file.read s.decoded.rd_addr s.write_back_data
  else s.register_file.read

/-- The memory after the store of the latched instruction, if it is one. -/
def stored : Memory :=
  if s.decoded.use_mem && s.decoded.mem_is_write then
    write_word m s.mem_addr s.mem_write_data s.mem_write_strobe
  else m

/-- The architectural state the latched instruction leads to. -/
def retired : ArchState where
  pc := s.next_pc
  x := s.written_back
  mem := s.stored m

/-- The data of the last load is the word that `m` holds at its address. -/
def Loaded : Prop :=
  s.decoded.use_mem = true → s.decoded.mem_is_write = false →
    s.memory_arbiter.load_data = read_word m s.mem_addr

variable {s m}

theorem stored_of_store (hmem : s.decoded.use_mem = true) (hw : s.decoded.mem_is_write = true) :
    s.stored m = write_word m s.mem_addr s.mem_write_data s.mem_write_strobe := by
  rw [stored, if_pos (by rw [hmem, hw]; rfl)]

theorem stored_of_not_store (h : s.decoded.use_mem = false ∨ s.decoded.mem_is_write = false) :
    s.stored m = m := by
  unfold stored
  rw [if_neg]
  rcases h with h | h <;> simp [h]

theorem arch_reg (r : BitVec 5) : (s.arch m).reg r = s.register_file.read r := by
  unfold ArchState.reg
  split
  · rename_i h
    rw [h]
    rfl
  · rfl

/-- Write back, as the instruction set describes it. -/
theorem set_reg_goto (r : BitVec 5) (v pc : Word) :
    ((s.arch m).set_reg r v).goto pc =
      { pc := pc
        x := if r != 0#5 then RegisterFile.update s.register_file.read r v
          else s.register_file.read
        mem := m } := by
  by_cases hr : r = 0#5
  · subst hr
    rfl
  · have hne : (r != 0#5) = true := by simpa using hr
    unfold ArchState.set_reg
    rw [if_neg hr, if_pos hne]
    rfl

/-! ### Loads and stores -/

theorem align_align (a : Word) : align (align a) = align a := by
  apply BitVec.eq_of_toNat_eq
  rw [align_toNat, align_toNat]
  omega

theorem write_word_align (a d : Word) (strb : BitVec 4) :
    write_word m (align a) d strb = write_word m a d strb := by
  funext b
  unfold write_word
  rw [align_align]

theorem funct3_of_load_op {w : Word} {op : LoadOp} (h : Rv32i.load_op w = some op) :
    funct3 w = load_func3 op := by
  unfold Rv32i.load_op at h
  -- LB, LH, LW, LBU, LHU
  split at h <;> cases h <;> assumption

theorem funct3_of_store_op {w : Word} {op : StoreOp} (h : Rv32i.store_op w = some op) :
    funct3 w = store_func3 op := by
  unfold Rv32i.store_op at h
  -- SB, SH, SW
  split at h <;> cases h <;> assumption

/-- The register value of a load: lanes, then extension. -/
theorem load_correct {w : Word} {op : LoadOp} (h : Rv32i.load_op w = some op) {a : Word}
    (ha : a.toNat % op.size = 0) (latched latched' : Word) :
    ByteReader.wb_data latched
      (ByteReader.shifted_data latched' (read_word m a) (funct3 w)
        (LoadStoreDecoder.byte_enb a (funct3 w))) (funct3 w) = op.read m a := by
  rw [funct3_of_load_op h]
  exact lanes_load op m ha latched latched'

/-- The strobed write of a store. -/
theorem store_correct {w : Word} {op : StoreOp} (h : Rv32i.store_op w = some op) {a : Word}
    (ha : a.toNat % op.size = 0) (latched v : Word) :
    write_word m a (LoadStoreDecoder.data latched a (funct3 w) v)
      (LoadStoreDecoder.byte_enb a (funct3 w)) = op.write m a v := by
  rw [funct3_of_store_op h]
  exact lanes_store op m ha latched v

/-! ### Instruction by instruction -/

theorem alu_out_add (h : s.decoded.alu_ctrl = ALU_CTRL_ADD) :
    s.alu_out = s.alu_src1 + s.alu_src2 := by
  unfold alu_out
  rw [h, alu_add]

section cases
variable {w : Word} (hw : s.instruction_latched = w)
include hw

theorem decoded_eq : s.decoded = instruction_decode w := by rw [decoded, hw]

theorem retired_lui (h : InstructionDecode.opcode w = OPCODE_LUI) :
    exec (s.arch m) (.lui (rd w) (Rv32i.imm_u w)) = s.retired m := by
  have hd := decoded_eq hw
  rw [decode_lui h] at hd
  -- LUI adds its immediate to x0
  have halu : s.alu_out = Rv32i.imm_u w := by
    rw [alu_out_add (by rw [hd]), alu_src1, alu_src2, RiscvCpu.rs1, hd]
    simp [RegisterFile.read]
  rw [exec, set_reg_goto, retired, written_back, stored, write_back_data, next_pc, hd, halu]
  simp [pc_plus_4, arch]

theorem retired_auipc (h : InstructionDecode.opcode w = OPCODE_AUIPC) :
    exec (s.arch m) (.auipc (rd w) (Rv32i.imm_u w)) = s.retired m := by
  have hd := decoded_eq hw
  rw [decode_auipc h] at hd
  have halu : s.alu_out = s.pc + Rv32i.imm_u w := by
    rw [alu_out_add (by rw [hd]), alu_src1, alu_src2, hd]
    simp
  rw [exec, set_reg_goto, retired, written_back, stored, write_back_data, next_pc, hd, halu]
  simp [pc_plus_4, arch]

theorem retired_jal (h : InstructionDecode.opcode w = OPCODE_JAL) :
    exec (s.arch m) (.jal (rd w) (imm_j w)) = s.retired m := by
  have hd := decoded_eq hw
  rw [decode_jal h] at hd
  rw [exec, set_reg_goto, retired, written_back, stored, write_back_data, next_pc, hd]
  simp [pc_plus_4, arch]

/-- The core adds rs1 and the immediate without clearing bit 0, which makes
    no difference for targets that are multiples of four. -/
theorem retired_jalr (h : InstructionDecode.opcode w = OPCODE_JALR)
    (hal : aligned (s.arch m) (.jalr (rd w) (Rv32i.rs1 w) (imm_i w)) = true) :
    exec (s.arch m) (.jalr (rd w) (Rv32i.rs1 w) (imm_i w)) = s.retired m := by
  have hd := decoded_eq hw
  rw [decode_jalr h] at hd
  have htarget : (s.register_file.read (Rv32i.rs1 w) + imm_i w).toNat % 4 = 0 := by
    simpa [aligned, arch_reg] using hal
  rw [exec, arch_reg, and_even (bit_zero_of_mod_four htarget), set_reg_goto, retired, written_back,
    stored, write_back_data, next_pc, RiscvCpu.rs1, hd]
  simp [pc_plus_4, arch]

theorem retired_branch {op : BranchOp} (h : InstructionDecode.opcode w = OPCODE_BRANCH)
    (hop : Rv32i.branch_op w = some op) :
    exec (s.arch m) (.branch op (Rv32i.rs1 w) (Rv32i.rs2 w) (imm_b w)) = s.retired m := by
  have hd := decoded_eq hw
  rw [decode_branch h] at hd
  have htaken : s.branch_taken =
      op.holds (s.register_file.read (Rv32i.rs1 w)) (s.register_file.read (Rv32i.rs2 w)) := by
    unfold branch_taken alu_src1 alu_src2 RiscvCpu.rs1 RiscvCpu.rs2
    rw [hd, ← alu_branch_op hop]
    simp
  rw [exec, arch_reg, arch_reg, retired, written_back, stored, next_pc, hd, htaken]
  simp [ArchState.goto, pc_plus_4, arch]

theorem retired_load {op : LoadOp} (h : InstructionDecode.opcode w = OPCODE_LOAD)
    (hop : Rv32i.load_op w = some op)
    (hal : aligned (s.arch m) (.load op (rd w) (Rv32i.rs1 w) (imm_i w)) = true)
    (hload : s.Loaded m) :
    exec (s.arch m) (.load op (rd w) (Rv32i.rs1 w) (imm_i w)) = s.retired m := by
  have hd := decoded_eq hw
  rw [decode_load h] at hd
  have haddr : (s.register_file.read (Rv32i.rs1 w) + imm_i w).toNat % op.size = 0 := by
    simpa [aligned, arch_reg] using hal
  have halu : s.alu_out = s.register_file.read (Rv32i.rs1 w) + imm_i w := by
    rw [alu_out_add (by rw [hd]), alu_src1, alu_src2, RiscvCpu.rs1, hd]
    simp
  have hmem : s.mem_addr = s.register_file.read (Rv32i.rs1 w) + imm_i w := by
    unfold mem_addr mem_addr_aux RiscvCpu.rs1
    rw [hd]
    simp
  have hdata : s.memory_arbiter.load_data =
      read_word m (s.register_file.read (Rv32i.rs1 w) + imm_i w) := by
    rw [hload (by rw [hd]) (by rw [hd]), hmem]
  have hwb : s.mem_wb_data = op.read m (s.register_file.read (Rv32i.rs1 w) + imm_i w) := by
    unfold mem_wb_data shifted_data mem_write_strobe
    rw [halu, hdata, hd]
    exact load_correct hop haddr _ _
  rw [exec, arch_reg, set_reg_goto, retired, written_back, stored, write_back_data, next_pc, hwb,
    hd]
  simp [pc_plus_4, arch]

theorem retired_store {op : StoreOp} (h : InstructionDecode.opcode w = OPCODE_STORE)
    (hop : Rv32i.store_op w = some op)
    (hal : aligned (s.arch m) (.store op (Rv32i.rs1 w) (Rv32i.rs2 w) (imm_s w)) = true) :
    exec (s.arch m) (.store op (Rv32i.rs1 w) (Rv32i.rs2 w) (imm_s w)) = s.retired m := by
  have hd := decoded_eq hw
  rw [decode_store h] at hd
  have haddr : (s.register_file.read (Rv32i.rs1 w) + imm_s w).toNat % op.size = 0 := by
    simpa [aligned, arch_reg] using hal
  have halu : s.alu_out = s.register_file.read (Rv32i.rs1 w) + imm_s w := by
    rw [alu_out_add (by rw [hd]), alu_src1, alu_src2, RiscvCpu.rs1, hd]
    simp
  -- the port carries the word address, the byte offset is in the strobe
  have hmem : s.mem_addr = align (s.register_file.read (Rv32i.rs1 w) + imm_s w) := by
    unfold mem_addr mem_addr_aux RiscvCpu.rs1
    rw [hd]
    rfl
  have hstored : s.stored m = op.write m (s.register_file.read (Rv32i.rs1 w) + imm_s w)
      (s.register_file.read (Rv32i.rs2 w)) := by
    rw [stored_of_store (by rw [hd]) (by rw [hd]), hmem, write_word_align, mem_write_data,
      mem_write_strobe, halu, RiscvCpu.rs2, hd]
    exact store_correct hop haddr _ _
  rw [exec, arch_reg, arch_reg, retired, hstored, written_back, next_pc, hd]
  simp [ArchState.goto, pc_plus_4, arch]

theorem retired_op_imm {op : ImmOp} {v : Word} (h : InstructionDecode.opcode w = OPCODE_OP_IMM)
    (hop : Rv32i.imm_op w = some (op, v)) :
    exec (s.arch m) (.op_imm op (rd w) (Rv32i.rs1 w) v) = s.retired m := by
  have hd := decoded_eq hw
  rw [decode_op_imm h] at hd
  have halu : s.alu_out = op.apply (s.register_file.read (Rv32i.rs1 w)) v := by
    unfold alu_out alu_src1 alu_src2 RiscvCpu.rs1
    rw [hd]
    exact alu_imm_op hop _
  rw [exec, arch_reg, set_reg_goto, retired, written_back, stored, write_back_data, next_pc,
    halu, hd]
  simp [pc_plus_4, arch]

theorem retired_op {op : RegOp} (h : InstructionDecode.opcode w = OPCODE_OP)
    (hop : Rv32i.reg_op w = some op) :
    exec (s.arch m) (.op op (rd w) (Rv32i.rs1 w) (Rv32i.rs2 w)) = s.retired m := by
  have hd := decoded_eq hw
  rw [decode_op h] at hd
  have halu : s.alu_out =
      op.apply (s.register_file.read (Rv32i.rs1 w)) (s.register_file.read (Rv32i.rs2 w)) := by
    unfold alu_out alu_src1 alu_src2 RiscvCpu.rs1 RiscvCpu.rs2
    rw [hd]
    exact alu_reg_op hop _ _
  rw [exec, arch_reg, arch_reg, set_reg_goto, retired, written_back, stored, write_back_data,
    next_pc, halu, hd]
  simp [pc_plus_4, arch]

end cases

/-! ### The datapath refines the instruction set -/

/-- For a decodable and aligned instruction the datapath computes its effect,
    given that a load has received its word. -/
theorem exec_eq_retired {i : Instr} (hdec : Rv32i.decode s.instruction_latched = some i)
    (hal : aligned (s.arch m) i = true) (hload : s.Loaded m) :
    exec (s.arch m) i = s.retired m := by
  have hd := decodesTo_of_decode hdec
  cases hd with
  | lui h => exact retired_lui rfl h
  | auipc h => exact retired_auipc rfl h
  | jal h => exact retired_jal rfl h
  | jalr h => exact retired_jalr rfl h hal
  | branch op h hop => exact retired_branch rfl h hop
  | load op h hop => exact retired_load rfl h hop hal hload
  | store op h hop => exact retired_store rfl h hop hal
  | op_imm op v h hop => exact retired_op_imm rfl h hop
  | op op h hop => exact retired_op rfl h hop

/-! ### Write back -/

/-- NEXT_PC writes the result of the instruction to its register, unless the
    instruction has none and the control module writes one. -/
theorem At.read_next_of_next_pc {s : RiscvCpu} (h : s.At .next_pc) {i : Input} (hq : i.cm.quiet) :
    (s.next i).register_file.read = s.written_back := by
  have hw : (s.register_file_input i).write_enable = s.decoded.do_write_back := by
    rw [h.write_enable]
    exact Bool.and_true _
  have he : (s.register_file_input i).extra_write_enable = false := hq.2.1
  have hf : (s.register_file_input i).fault_write_enable = false := hq.2.2
  have hn : (s.next i).register_file = s.register_file.next (s.register_file_input i) := rfl
  by_cases hwb : (s.decoded.do_write_back && s.decoded.rd_addr != 0#5) = true
  · have hrd : s.decoded.rd_addr ≠ 0#5 := by
      intro hc
      simp [hc] at hwb
    have hregs : (s.next i).register_file.registers =
        RegisterFile.update s.register_file.registers s.decoded.rd_addr s.write_back_data := by
      rw [hn, RegisterFile.next, hw]
      exact if_pos hwb
    rw [read_update hrd hregs, written_back, if_pos hwb]
  · -- a branch, a store, or a write to x0
    have hregs : (s.next i).register_file.registers = s.register_file.registers := by
      rw [hn, RegisterFile.next, hw, he, hf]
      exact if_neg hwb
    rw [read_congr hregs, written_back, if_neg hwb]

end RiscvCpu

end RiscvWorker
