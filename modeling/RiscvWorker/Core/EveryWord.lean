import RiscvWorker.Isa.EveryWord
import RiscvWorker.Core.Execution
import RiscvWorker.Library.WordArray

/-! # The datapath executes every word

  `Core/Execution` compares the datapath with RV32I, for the words and the
  addresses that the instruction set defines. Here it is compared with
  `CoreIsa`, which has no undefined cases: whatever word is latched, and
  wherever it points, `retired` is its effect.
-/

namespace CoreIsa

open ByteMemory
open Rv32i (ArchState rs1 imm_i exec)

/-! ### CoreIsa extends RV32I -/

/-- An instruction of RV32I that stays within the supported fragment. -/
theorem exec_word_of_rv32i (held : Word) {s : ArchState} {w : Word} {i : Rv32i.Instr}
    (hdec : Rv32i.decode w = some i) (hal : Rv32i.aligned s i = true) :
    exec_word held s w = exec s i := by
  have hd := RiscvWorker.decodesTo_of_decode hdec
  cases hd with
  | lui h => exact exec_word_lui h
  | auipc h => exact exec_word_auipc h
  | jal h => exact exec_word_jal h
  | jalr h =>
    -- bit 0 of the target is clear anyway
    have htarget : (s.reg (rs1 w) + imm_i w).toNat % 4 = 0 := by simpa [Rv32i.aligned] using hal
    rw [exec_word_jalr h, exec, RiscvWorker.and_even (RiscvWorker.bit_zero_of_mod_four htarget)]
  | branch op h hop => exact exec_word_branch h hop
  | load op h hop =>
    rw [exec_word_load h, hop,
      load_value_aligned held op s.mem (by simpa [Rv32i.aligned] using hal)]
    rfl
  | store op h hop =>
    rw [exec_word_store h, store_op_of_rv32i hop,
      store_effect_aligned op s.mem _ (by simpa [Rv32i.aligned] using hal)]
    rfl
  | op_imm op v h hop => rw [exec_word_op_imm h, imm_op_of_rv32i hop]
  | op op h hop => rw [exec_word_op h, reg_op_of_rv32i hop]

/-- Where RV32I defines a step, the core makes this step. -/
theorem step_of_rv32i (held : Word) {s s' : ArchState} (h : Rv32i.step s = some s') :
    step held s = s' := by
  obtain ⟨i, hpc, hdec, hal, rfl⟩ := Rv32i.step_eq_some h
  rw [step, read_word_eq_load_word hpc]
  exact exec_word_of_rv32i held hdec hal

end CoreIsa

namespace RiscvWorker

open ByteMemory
open Rv32i (ArchState LoadOp StoreOp funct3 funct7 imm_i imm_s exec)

/-! ### The units on every word -/

theorem func3_cases (f : BitVec 3) :
    f = 0b000#3 ∨ f = 0b001#3 ∨ f = 0b010#3 ∨ f = 0b011#3 ∨ f = 0b100#3 ∨ f = 0b101#3 ∨
      f = 0b110#3 ∨ f = 0b111#3 := by
  revert f
  decide

theorem alu_any_op (w a b : Word) :
    alu_result (0#1 ++ BitVec.ofBool (funct7 w == F7_SUB) ++ funct3 w) a b =
      (CoreIsa.reg_op w).apply a b := by
  have halt : CoreIsa.alternative w = (funct7 w == F7_SUB) := rfl
  unfold CoreIsa.reg_op
  rw [halt]
  cases (funct7 w == F7_SUB) <;>
    rcases func3_cases (funct3 w) with h | h | h | h | h | h | h | h <;>
    rw [h] <;>
    simp [alu_result, Rv32i.RegOp.apply, bit_eq_ite, BitVec.shiftLeft_eq',
      BitVec.ushiftRight_eq', BitVec.sshiftRight_eq']

/-- Only the right shifts of OP-IMM look at func7. -/
theorem alu_any_op_imm (w a : Word) :
    alu_result (0#1 ++ BitVec.ofBool
      ((if funct3 w = F3_SRL_SRA then funct7 w else 0#7) == F7_SUB) ++ funct3 w) a (imm_i w) =
      (CoreIsa.imm_op w).1.apply a (CoreIsa.imm_op w).2 := by
  have halt : CoreIsa.alternative w = (funct7 w == F7_SUB) := rfl
  have hctrl : ((if funct3 w = F3_SRL_SRA then funct7 w else 0#7) == F7_SUB) =
      (funct3 w == F3_SRL_SRA && (funct7 w == F7_SUB)) := by
    by_cases h : funct3 w = F3_SRL_SRA
    · rw [if_pos h, h, BEq.rfl, Bool.true_and]
    · rw [if_neg h, beq_false_of_ne h, Bool.false_and]
      rfl
  have hsh := imm_i_shamt w
  rw [extract_shamt] at hsh
  unfold CoreIsa.imm_op
  rw [halt, hctrl]
  cases (funct7 w == F7_SUB) <;>
    rcases func3_cases (funct3 w) with h | h | h | h | h | h | h | h <;>
    rw [h] <;>
    simp [alu_result, Rv32i.ImmOp.apply, bit_eq_ite, hsh, BitVec.shiftLeft_eq',
      BitVec.ushiftRight_eq', BitVec.sshiftRight_eq']

theorem no_branch {w : Word} (h : Rv32i.branch_op w = none) (a b : Word) :
    take_branch (1#1 ++ 0#1 ++ funct3 w) a b = false := by
  unfold Rv32i.branch_op at h
  rcases func3_cases (funct3 w) with h3 | h3 | h3 | h3 | h3 | h3 | h3 | h3 <;> rw [h3] at h ⊢ <;>
    first
      | simp at h; done
      | simp [take_branch, alu_result]

/-! ### The lanes of every access -/

theorem byte_enb_odd_half {a : Word} (ha : a.toNat % 2 ≠ 0) {f3 : BitVec 3}
    (hf : f3 = F3_HALF_WORD ∨ f3 = F3_HALF_WORD_U) : LoadStoreDecoder.byte_enb a f3 = 0#4 := by
  have h := byte_enb_misaligned .sh ha
  rcases hf with rfl | rfl
  · exact h
  · exact h

/-- The low half of a held word is extended like a loaded one. -/
theorem wb_data_low_half (held_wb d : Word) :
    ByteReader.wb_data held_wb d F3_HALF_WORD = (d.extractLsb' 0 16).signExtend 32 := by
  have hw : ByteReader.wb_data held_wb d F3_HALF_WORD =
      BitVec.replicate 16 (d.extractLsb' 15 1) ++ d.extractLsb' 0 16 := rfl
  rw [hw]
  ext j hj
  simp only [BitVec.getElem_append, BitVec.getElem_signExtend, BitVec.getElem_replicate]
  grind

/-- What the unit holds becomes the value of the load. -/
theorem lanes_any_load (w : Word) (m : Memory) (a held_shifted held_wb : Word) :
    ByteReader.wb_data held_wb
      (ByteReader.shifted_data held_shifted (read_word m a) (funct3 w)
        (LoadStoreDecoder.byte_enb a (funct3 w))) (funct3 w) =
      CoreIsa.load_value (if (Rv32i.load_op w).isSome then held_shifted else held_wb)
        (Rv32i.load_op w) m a := by
  cases hop : Rv32i.load_op w with
  | none =>
    unfold Rv32i.load_op at hop
    rcases func3_cases (funct3 w) with h3 | h3 | h3 | h3 | h3 | h3 | h3 | h3 <;>
      rw [h3] at hop ⊢ <;> first
        | simp at hop; done
        | rfl
  | some op =>
    rw [Option.isSome_some, if_pos rfl]
    by_cases ha : a.toNat % op.size = 0
    · rw [RiscvCpu.load_correct hop ha, CoreIsa.load_value_aligned _ _ _ ha]
    · rw [RiscvCpu.funct3_of_load_op hop]
      cases op with
      | lb | lbu => exact absurd (Nat.mod_one _) ha
      | lh =>
        rw [show load_func3 .lh = F3_HALF_WORD from rfl, byte_enb_odd_half ha (.inl rfl)]
        exact (wb_data_low_half held_wb held_shifted).trans (if_neg ha).symm
      | lhu =>
        rw [show load_func3 .lhu = F3_HALF_WORD_U from rfl, byte_enb_odd_half ha (.inr rfl),
          wb_data_half_u]
        exact (if_neg ha).symm
      | lw =>
        -- a word is never held: with no lane selected it is zero
        have hmask : LoadStoreDecoder.byte_enb a F3_WORD = 0#4 := byte_enb_misaligned .sw ha
        have hzero : ByteReader.shifted_data held_shifted (read_word m a) F3_WORD 0#4 = 0#32 := by
          simp [ByteReader.shifted_data, ByteReader.masked_data, ByteReader.masked_byte]
        rw [show load_func3 .lw = F3_WORD from rfl, hmask, wb_data_word, hzero]
        exact (if_neg ha).symm

theorem store_op_lanes {w : Word} {op : StoreOp} (h : CoreIsa.store_op w = some op)
    (latched a v : Word) :
    LoadStoreDecoder.byte_enb a (funct3 w) = LoadStoreDecoder.byte_enb a (store_func3 op) ∧
      LoadStoreDecoder.data latched a (funct3 w) v =
        LoadStoreDecoder.data latched a (store_func3 op) v := by
  unfold CoreIsa.store_op at h
  split at h <;> cases h
  all_goals
    rename_i h3
    rw [h3]
    exact ⟨rfl, rfl⟩

/-- The strobed write of any store. -/
theorem lanes_any_store (w : Word) (m : Memory) (latched a v : Word) :
    write_word m a (LoadStoreDecoder.data latched a (funct3 w) v)
      (LoadStoreDecoder.byte_enb a (funct3 w)) =
      CoreIsa.store_effect (CoreIsa.store_op w) m a v := by
  cases hop : CoreIsa.store_op w with
  | none =>
    have hmask : LoadStoreDecoder.byte_enb a (funct3 w) = 0#4 := by
      unfold CoreIsa.store_op at hop
      rcases func3_cases (funct3 w) with h3 | h3 | h3 | h3 | h3 | h3 | h3 | h3 <;>
        rw [h3] at hop ⊢ <;> first
          | simp at hop; done
          | rfl
    rw [hmask, write_word_none]
    rfl
  | some op =>
    obtain ⟨henb, hdata⟩ := store_op_lanes hop latched a v
    rw [henb, hdata]
    by_cases ha : a.toNat % op.size = 0
    · rw [lanes_store op m ha, CoreIsa.store_effect_aligned op m v ha]
    · rw [byte_enb_misaligned op ha, write_word_none]
      exact (if_neg ha).symm

/-! ### Unknown opcodes -/

/-- The opcodes that the decoder tells apart. -/
def opcodes : List (BitVec 7) :=
  [OPCODE_LUI, OPCODE_AUIPC, OPCODE_JAL, OPCODE_JALR, OPCODE_BRANCH, OPCODE_LOAD, OPCODE_STORE,
    OPCODE_OP_IMM, OPCODE_OP]

theorem mem_opcodes {op : BitVec 7} : op ∈ opcodes ↔
    op = OPCODE_LUI ∨ op = OPCODE_AUIPC ∨ op = OPCODE_JAL ∨ op = OPCODE_JALR ∨
      op = OPCODE_BRANCH ∨ op = OPCODE_LOAD ∨ op = OPCODE_STORE ∨ op = OPCODE_OP_IMM ∨
      op = OPCODE_OP := by
  simp [opcodes]

/-- The decoder asks for nothing. -/
theorem decode_other {w : Word} (h : InstructionDecode.opcode w ∉ opcodes) :
    (instruction_decode w).do_write_back = false ∧ (instruction_decode w).use_mem = false ∧
      (instruction_decode w).is_branch = false ∧ (instruction_decode w).is_jump = false := by
  rw [mem_opcodes] at h
  simp only [not_or] at h
  obtain ⟨h1, h2, h3, h4, h5, h6, h7, h8, h9⟩ := h
  have hty : InstructionDecode.instr_type (InstructionDecode.opcode w) = .invalid := by
    simp only [InstructionDecode.instr_type, h1, h2, h3, h4, h5, h6, h7, h8, h9, or_self, if_false]
  simp only [instruction_decode, hty, beq_false_of_ne h3, beq_false_of_ne h4, beq_false_of_ne h5,
    beq_false_of_ne h6, beq_false_of_ne h7, Bool.or_self, InstructionDecode.has_rd, and_self]

theorem exec_word_other {held : Word} {s : ArchState} {w : Word}
    (h : InstructionDecode.opcode w ∉ opcodes) :
    CoreIsa.exec_word held s w = s.goto (s.pc + 4#32) := by
  rw [mem_opcodes] at h
  unfold CoreIsa.exec_word
  split
  case h_10 => rfl
  all_goals
    rename_i hop
    exact absurd (by simp [InstructionDecode.opcode, hop]) h

/-! ### Instruction by instruction -/

namespace RiscvCpu

/-- What the load unit holds for the latched instruction: the shifted word,
    or the register value if the width is unknown. -/
def held (s : RiscvCpu) : Word :=
  if (Rv32i.load_op s.instruction_latched).isSome then s.latched_shifted else s.latched_wb

variable {s : RiscvCpu} {m : Memory}

section cases
variable {w : Word} (hw : s.instruction_latched = w)
include hw

/-- Any JALR, with the target as it is. -/
theorem any_jalr (h : InstructionDecode.opcode w = OPCODE_JALR) :
    CoreIsa.exec_word s.held (s.arch m) w = s.retired m := by
  have hd := decoded_eq hw
  rw [decode_jalr h] at hd
  rw [CoreIsa.exec_word_jalr h, arch_reg, set_reg_goto, retired, written_back, stored,
    write_back_data, next_pc, RiscvCpu.rs1, hd]
  simp [pc_plus_4, arch]

theorem any_branch (h : InstructionDecode.opcode w = OPCODE_BRANCH) :
    CoreIsa.exec_word s.held (s.arch m) w = s.retired m := by
  cases hop : Rv32i.branch_op w with
  | some op => rw [CoreIsa.exec_word_branch h hop, retired_branch hw h hop]
  | none =>
    have hd := decoded_eq hw
    rw [decode_branch h] at hd
    have htaken : s.branch_taken = false := by
      unfold branch_taken
      rw [hd, no_branch hop]
    rw [CoreIsa.exec_word_no_branch h hop, retired, written_back, stored, next_pc, hd, htaken]
    simp [ArchState.goto, pc_plus_4, arch]

theorem any_load (h : InstructionDecode.opcode w = OPCODE_LOAD) (hload : s.Loaded m) :
    CoreIsa.exec_word s.held (s.arch m) w = s.retired m := by
  have hd := decoded_eq hw
  rw [decode_load h] at hd
  have halu : s.alu_out = s.register_file.read (Rv32i.rs1 w) + imm_i w := by
    rw [alu_out_add (by rw [hd]), alu_src1, alu_src2, RiscvCpu.rs1, hd]
    simp
  have hmem : s.mem_addr = s.register_file.read (Rv32i.rs1 w) + imm_i w := by
    unfold mem_addr mem_addr_aux RiscvCpu.rs1
    rw [hd]
    simp
  have hdata : s.memory_arbiter.load_data =
      read_word m (s.register_file.read (Rv32i.rs1 w) + imm_i w) := by
    rw [hload (by rw [hd]) (by rw [hd]), hmem]
  have hwb : s.mem_wb_data = CoreIsa.load_value s.held (Rv32i.load_op w) m
      (s.register_file.read (Rv32i.rs1 w) + imm_i w) := by
    unfold mem_wb_data shifted_data mem_write_strobe held
    rw [halu, hdata, hd, hw]
    exact lanes_any_load w m _ _ _
  rw [CoreIsa.exec_word_load h, arch_reg, set_reg_goto, retired, written_back, stored,
    write_back_data, next_pc, hwb, hd]
  simp [pc_plus_4, arch]

theorem any_store (h : InstructionDecode.opcode w = OPCODE_STORE) :
    CoreIsa.exec_word s.held (s.arch m) w = s.retired m := by
  have hd := decoded_eq hw
  rw [decode_store h] at hd
  have halu : s.alu_out = s.register_file.read (Rv32i.rs1 w) + imm_s w := by
    rw [alu_out_add (by rw [hd]), alu_src1, alu_src2, RiscvCpu.rs1, hd]
    simp
  have hmem : s.mem_addr = align (s.register_file.read (Rv32i.rs1 w) + imm_s w) := by
    unfold mem_addr mem_addr_aux RiscvCpu.rs1
    rw [hd]
    rfl
  have hstored : s.stored m = CoreIsa.store_effect (CoreIsa.store_op w) m
      (s.register_file.read (Rv32i.rs1 w) + imm_s w) (s.register_file.read (Rv32i.rs2 w)) := by
    rw [stored_of_store (by rw [hd]) (by rw [hd]), hmem, write_word_align, mem_write_data,
      mem_write_strobe, halu, RiscvCpu.rs2, hd]
    exact lanes_any_store w m _ _ _
  rw [CoreIsa.exec_word_store h, arch_reg, arch_reg, retired, hstored, written_back, next_pc, hd]
  simp [ArchState.goto, pc_plus_4, arch]

theorem any_op_imm (h : InstructionDecode.opcode w = OPCODE_OP_IMM) :
    CoreIsa.exec_word s.held (s.arch m) w = s.retired m := by
  have hd := decoded_eq hw
  rw [decode_op_imm h] at hd
  have halu : s.alu_out = (CoreIsa.imm_op w).1.apply (s.register_file.read (Rv32i.rs1 w))
      (CoreIsa.imm_op w).2 := by
    unfold alu_out alu_src1 alu_src2 RiscvCpu.rs1
    rw [hd]
    exact alu_any_op_imm w _
  rw [CoreIsa.exec_word_op_imm h, exec, arch_reg, set_reg_goto, retired, written_back, stored,
    write_back_data, next_pc, halu, hd]
  simp [pc_plus_4, arch]

theorem any_op (h : InstructionDecode.opcode w = OPCODE_OP) :
    CoreIsa.exec_word s.held (s.arch m) w = s.retired m := by
  have hd := decoded_eq hw
  rw [decode_op h] at hd
  have halu : s.alu_out = (CoreIsa.reg_op w).apply (s.register_file.read (Rv32i.rs1 w))
      (s.register_file.read (Rv32i.rs2 w)) := by
    unfold alu_out alu_src1 alu_src2 RiscvCpu.rs1 RiscvCpu.rs2
    rw [hd]
    exact alu_any_op w _ _
  rw [CoreIsa.exec_word_op h, exec, arch_reg, arch_reg, set_reg_goto, retired, written_back,
    stored, write_back_data, next_pc, halu, hd]
  simp [pc_plus_4, arch]

/-- A word with an unknown opcode. -/
theorem any_other (h : InstructionDecode.opcode w ∉ opcodes) :
    CoreIsa.exec_word s.held (s.arch m) w = s.retired m := by
  have hd := decoded_eq hw
  obtain ⟨hwb, hmem, hbranch, hjump⟩ := decode_other h
  rw [exec_word_other h, retired, written_back, stored, next_pc, hd, hwb, hmem, hbranch, hjump]
  simp [ArchState.goto, pc_plus_4, arch]

end cases

/-- Whatever word is latched, the datapath computes its effect, given that a
    load has received its word. -/
theorem exec_word_eq_retired (hload : s.Loaded m) :
    CoreIsa.exec_word s.held (s.arch m) s.instruction_latched = s.retired m := by
  by_cases h : InstructionDecode.opcode s.instruction_latched ∈ opcodes
  · rcases mem_opcodes.mp h with h | h | h | h | h | h | h | h | h
    · rw [CoreIsa.exec_word_lui h, retired_lui rfl h]
    · rw [CoreIsa.exec_word_auipc h, retired_auipc rfl h]
    · rw [CoreIsa.exec_word_jal h, retired_jal rfl h]
    · exact any_jalr rfl h
    · exact any_branch rfl h
    · exact any_load rfl h hload
    · exact any_store rfl h
    · exact any_op_imm rfl h
    · exact any_op rfl h
  · exact any_other rfl h

end RiscvCpu

end RiscvWorker
