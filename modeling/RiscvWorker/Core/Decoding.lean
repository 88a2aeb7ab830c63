import RiscvWorker.Isa.Rv32i
import RiscvWorker.Hdl.InstructionDecode
import RiscvWorker.Hdl.Datapath

/-! # The decoder and the ALU against the instruction set

  What `instruction_decode` returns for the words of each opcode, and that
  the ALU, driven by the control code of an instruction, computes that
  instruction's operation.
-/

namespace RiscvWorker

open Rv32i (Instr BranchOp LoadOp StoreOp ImmOp RegOp rd rs1 rs2 funct3 funct7 imm_i imm_s imm_b
  imm_u imm_j shamt)
open InstructionDecode

variable {w : Word}

/-! ### Bit 0 -/

theorem bit_zero_of_mod_four {a : Word} (h : a.toNat % 4 = 0) : a.getLsbD 0 = false := by
  rw [BitVec.getLsbD, Nat.testBit_zero, decide_eq_false_iff_not]
  omega

theorem add_bit_zero (a b : Word) : (a + b).getLsbD 0 = (a.getLsbD 0 ^^ b.getLsbD 0) := by
  rw [BitVec.getLsbD_add (by decide), BitVec.carry_zero, Bool.xor_false]

/-- Clearing bit 0 of an even word changes nothing. -/
theorem and_even {a : Word} (h : a.getLsbD 0 = false) : a &&& 0xFFFFFFFE#32 = a := by
  have hmask : 0xFFFFFFFE#32 = BitVec.allOnes 32 <<< 1 := by decide
  apply BitVec.eq_of_getLsbD_eq
  intro j hj
  -- bit by bit: bit 0 of `a` is zero anyway, the others are kept
  rw [hmask, BitVec.getLsbD_and, BitVec.getLsbD_shiftLeft, BitVec.getLsbD_allOnes]
  by_cases hj0 : j = 0
  · rw [hj0, h]
    rfl
  · simp [show ¬ j < 1 from by omega, show j - 1 < 32 from by omega, hj]

/-! ### Immediates

  The decoder replicates the sign bit, the instruction set sign extends; the
  two are compared bit by bit. -/

theorem imm_eq_imm_i (w : Word) : imm w .i = imm_i w := by
  simp only [imm, imm_i]
  ext j hj
  simp only [BitVec.getElem_append, BitVec.getElem_signExtend, BitVec.getElem_replicate]
  grind

theorem imm_eq_imm_s (w : Word) : imm w .s = imm_s w := by
  simp only [imm, imm_s]
  ext j hj
  simp only [BitVec.getElem_append, BitVec.getElem_signExtend, BitVec.getElem_replicate,
    BitVec.msb_append]
  grind

theorem imm_eq_imm_b (w : Word) : imm w .b = imm_b w := by
  simp only [imm, imm_b]
  ext j hj
  simp only [BitVec.getElem_append, BitVec.getElem_signExtend, BitVec.getElem_replicate,
    BitVec.msb_append]
  grind

theorem imm_eq_imm_j (w : Word) : imm w .j = imm_j w := by
  simp only [imm, imm_j]
  ext j hj
  simp only [BitVec.getElem_append, BitVec.getElem_signExtend, BitVec.getElem_replicate,
    BitVec.msb_append]
  grind

theorem imm_b_bit_zero (w : Word) : (imm_b w).getLsbD 0 = false := by
  rw [imm_b, BitVec.getLsbD_signExtend, if_pos (by decide), BitVec.getLsbD_append]
  simp

theorem imm_j_bit_zero (w : Word) : (imm_j w).getLsbD 0 = false := by
  rw [imm_j, BitVec.getLsbD_signExtend, if_pos (by decide), BitVec.getLsbD_append]
  simp

/-- The low five bits of an I-type immediate are the shift amount. -/
theorem imm_i_shamt (w : Word) : ((imm_i w).extractLsb' 0 5).toNat = (shamt w).toNat := by
  have h : (imm_i w).extractLsb' 0 5 = w.extractLsb' 20 5 := by
    simp only [imm_i]
    ext j hj
    simp only [BitVec.getElem_extractLsb', BitVec.getLsbD_signExtend]
    grind
  have hlt := (w.extractLsb' 20 5).isLt
  rw [h, shamt, BitVec.toNat_setWidth]
  omega

/-! ### The decoder, opcode by opcode -/

theorem decode_lui (h : opcode w = OPCODE_LUI) :
    instruction_decode w =
      { func3 := 0#3, func7 := 0#7, rs1_addr := 0#5, rs2_addr := 0#5, rd_addr := rd w,
        imm := imm_u w, alu_src1_is_pc := false, alu_src2_is_imm := true, use_mem := false,
        is_branch := false, is_jump := false, is_jalr := false, mem_is_write := false,
        do_write_back := true, alu_ctrl := ALU_CTRL_ADD } := by
  simp [instruction_decode, h, instr_type, has_rs1, has_rs2, has_rd, has_func3, has_func7,
    alu_ctrl, imm, imm_u, rd]

theorem decode_auipc (h : opcode w = OPCODE_AUIPC) :
    instruction_decode w =
      { func3 := 0#3, func7 := 0#7, rs1_addr := 0#5, rs2_addr := 0#5, rd_addr := rd w,
        imm := imm_u w, alu_src1_is_pc := true, alu_src2_is_imm := true, use_mem := false,
        is_branch := false, is_jump := false, is_jalr := false, mem_is_write := false,
        do_write_back := true, alu_ctrl := ALU_CTRL_ADD } := by
  simp [instruction_decode, h, instr_type, has_rs1, has_rs2, has_rd, has_func3, has_func7,
    alu_ctrl, imm, imm_u, rd]

theorem decode_jal (h : opcode w = OPCODE_JAL) :
    instruction_decode w =
      { func3 := 0#3, func7 := 0#7, rs1_addr := 0#5, rs2_addr := 0#5, rd_addr := rd w,
        imm := imm_j w, alu_src1_is_pc := false, alu_src2_is_imm := true, use_mem := false,
        is_branch := false, is_jump := true, is_jalr := false, mem_is_write := false,
        do_write_back := true, alu_ctrl := ALU_CTRL_NOP } := by
  simp [instruction_decode, h, instr_type, has_rs1, has_rs2, has_rd, has_func3, has_func7,
    alu_ctrl, imm_eq_imm_j, rd]

theorem decode_jalr (h : opcode w = OPCODE_JALR) :
    instruction_decode w =
      { func3 := funct3 w, func7 := 0#7, rs1_addr := rs1 w, rs2_addr := 0#5, rd_addr := rd w,
        imm := imm_i w, alu_src1_is_pc := false, alu_src2_is_imm := true, use_mem := false,
        is_branch := false, is_jump := true, is_jalr := true, mem_is_write := false,
        do_write_back := true, alu_ctrl := ALU_CTRL_NOP } := by
  simp [instruction_decode, h, instr_type, has_rs1, has_rs2, has_rd, has_func3, has_func7,
    alu_ctrl, imm_eq_imm_i, rd, rs1, funct3]

theorem decode_branch (h : opcode w = OPCODE_BRANCH) :
    instruction_decode w =
      { func3 := funct3 w, func7 := 0#7, rs1_addr := rs1 w, rs2_addr := rs2 w, rd_addr := 0#5,
        imm := imm_b w, alu_src1_is_pc := false, alu_src2_is_imm := false, use_mem := false,
        is_branch := true, is_jump := false, is_jalr := false, mem_is_write := false,
        do_write_back := false, alu_ctrl := 1#1 ++ 0#1 ++ funct3 w } := by
  simp [instruction_decode, h, instr_type, has_rs1, has_rs2, has_rd, has_func3, has_func7,
    alu_ctrl, imm_eq_imm_b, rs1, rs2, funct3]

theorem decode_load (h : opcode w = OPCODE_LOAD) :
    instruction_decode w =
      { func3 := funct3 w, func7 := 0#7, rs1_addr := rs1 w, rs2_addr := 0#5, rd_addr := rd w,
        imm := imm_i w, alu_src1_is_pc := false, alu_src2_is_imm := true, use_mem := true,
        is_branch := false, is_jump := false, is_jalr := false, mem_is_write := false,
        do_write_back := true, alu_ctrl := ALU_CTRL_ADD } := by
  simp [instruction_decode, h, instr_type, has_rs1, has_rs2, has_rd, has_func3, has_func7,
    alu_ctrl, imm_eq_imm_i, rd, rs1, funct3]

theorem decode_store (h : opcode w = OPCODE_STORE) :
    instruction_decode w =
      { func3 := funct3 w, func7 := 0#7, rs1_addr := rs1 w, rs2_addr := rs2 w, rd_addr := 0#5,
        imm := imm_s w, alu_src1_is_pc := false, alu_src2_is_imm := true, use_mem := true,
        is_branch := false, is_jump := false, is_jalr := false, mem_is_write := true,
        do_write_back := false, alu_ctrl := ALU_CTRL_ADD } := by
  simp [instruction_decode, h, instr_type, has_rs1, has_rs2, has_rd, has_func3, has_func7,
    alu_ctrl, imm_eq_imm_s, rs1, rs2, funct3]

/-- The func7 bits of an OP-IMM word count only for the right shifts. -/
theorem decode_op_imm (h : opcode w = OPCODE_OP_IMM) :
    instruction_decode w =
      { func3 := funct3 w, func7 := if funct3 w = F3_SRL_SRA then funct7 w else 0#7,
        rs1_addr := rs1 w, rs2_addr := 0#5, rd_addr := rd w,
        imm := imm_i w, alu_src1_is_pc := false, alu_src2_is_imm := true, use_mem := false,
        is_branch := false, is_jump := false, is_jalr := false, mem_is_write := false,
        do_write_back := true,
        alu_ctrl := 0#1 ++ BitVec.ofBool
          ((if funct3 w = F3_SRL_SRA then funct7 w else 0#7) == F7_SUB) ++ funct3 w } := by
  -- the one immediate instruction with a func7 field
  by_cases h3 : w.extractLsb' 12 3 = 5#3
  all_goals
    simp [instruction_decode, h, h3, instr_type, has_rs1, has_rs2, has_rd, has_func3, has_func7,
      alu_ctrl, imm_eq_imm_i, rd, rs1, funct3, funct7]

theorem decode_op (h : opcode w = OPCODE_OP) :
    instruction_decode w =
      { func3 := funct3 w, func7 := funct7 w, rs1_addr := rs1 w, rs2_addr := rs2 w,
        rd_addr := rd w, imm := 0#32, alu_src1_is_pc := false, alu_src2_is_imm := false,
        use_mem := false, is_branch := false, is_jump := false, is_jalr := false,
        mem_is_write := false, do_write_back := true,
        alu_ctrl := 0#1 ++ BitVec.ofBool (funct7 w == F7_SUB) ++ funct3 w } := by
  simp [instruction_decode, h, instr_type, has_rs1, has_rs2, has_rd, has_func3, has_func7,
    alu_ctrl, imm, rd, rs1, rs2, funct3, funct7]

/-! ### Reading a decoded instruction back -/

/-- The opcode and the fields of a word that decodes. -/
inductive DecodesTo (w : Word) : Instr → Prop where
  | lui : opcode w = OPCODE_LUI → DecodesTo w (.lui (rd w) (imm_u w))
  | auipc : opcode w = OPCODE_AUIPC → DecodesTo w (.auipc (rd w) (imm_u w))
  | jal : opcode w = OPCODE_JAL → DecodesTo w (.jal (rd w) (imm_j w))
  | jalr : opcode w = OPCODE_JALR → DecodesTo w (.jalr (rd w) (rs1 w) (imm_i w))
  | branch (op : BranchOp) : opcode w = OPCODE_BRANCH → Rv32i.branch_op w = some op →
      DecodesTo w (.branch op (rs1 w) (rs2 w) (imm_b w))
  | load (op : LoadOp) : opcode w = OPCODE_LOAD → Rv32i.load_op w = some op →
      DecodesTo w (.load op (rd w) (rs1 w) (imm_i w))
  | store (op : StoreOp) : opcode w = OPCODE_STORE → Rv32i.store_op w = some op →
      DecodesTo w (.store op (rs1 w) (rs2 w) (imm_s w))
  | op_imm (op : ImmOp) (v : Word) : opcode w = OPCODE_OP_IMM → Rv32i.imm_op w = some (op, v) →
      DecodesTo w (.op_imm op (rd w) (rs1 w) v)
  | op (op : RegOp) : opcode w = OPCODE_OP → Rv32i.reg_op w = some op →
      DecodesTo w (.op op (rd w) (rs1 w) (rs2 w))

theorem decodesTo_of_decode {i : Instr} (h : Rv32i.decode w = some i) : DecodesTo w i := by
  unfold Rv32i.decode at h
  -- one goal for each opcode, in the order of `decode`
  split at h
  · rename_i hop
    rw [Option.some.injEq] at h
    exact h ▸ .lui hop
  · rename_i hop
    rw [Option.some.injEq] at h
    exact h ▸ .auipc hop
  · rename_i hop
    rw [Option.some.injEq] at h
    exact h ▸ .jal hop
  · rename_i hop
    split at h
    · rw [Option.some.injEq] at h
      exact h ▸ .jalr hop
    · exact absurd h (by simp)
  · rename_i hop
    obtain ⟨op, hop', rfl⟩ := Option.map_eq_some_iff.mp h
    exact .branch op hop hop'
  · rename_i hop
    obtain ⟨op, hop', rfl⟩ := Option.map_eq_some_iff.mp h
    exact .load op hop hop'
  · rename_i hop
    obtain ⟨op, hop', rfl⟩ := Option.map_eq_some_iff.mp h
    exact .store op hop hop'
  · rename_i hop
    obtain ⟨⟨op, v⟩, hop', rfl⟩ := Option.map_eq_some_iff.mp h
    exact .op_imm op v hop hop'
  · rename_i hop
    obtain ⟨op, hop', rfl⟩ := Option.map_eq_some_iff.mp h
    exact .op op hop hop'
  · exact absurd h (by simp)

/-! ### The ALU -/

theorem bit_eq_ite (b : Bool) : bit b = if b then 1#32 else 0#32 := by cases b <;> rfl

theorem bit_getElem_zero (b : Bool) : (bit b)[0] = b := by cases b <;> rfl

/-- The shift amount of the ALU. -/
theorem extract_shamt (b : Word) : (b.extractLsb' 0 5).toNat = b.toNat % 32 := by
  simp

theorem alu_add (a b : Word) : alu_result ALU_CTRL_ADD a b = a + b := by
  simp [alu_result]

theorem alu_reg_op {op : RegOp} (h : Rv32i.reg_op w = some op) (a b : Word) :
    alu_result (0#1 ++ BitVec.ofBool (funct7 w == F7_SUB) ++ funct3 w) a b = op.apply a b := by
  unfold Rv32i.reg_op at h
  split at h <;> cases h
  all_goals
    rename_i h3 h7
    rw [h3, h7]
    simp [alu_result, RegOp.apply, bit_eq_ite, BitVec.shiftLeft_eq', BitVec.ushiftRight_eq',
      BitVec.sshiftRight_eq']

theorem alu_branch_op {op : BranchOp} (h : Rv32i.branch_op w = some op) (a b : Word) :
    take_branch (1#1 ++ 0#1 ++ funct3 w) a b = op.holds a b := by
  unfold Rv32i.branch_op at h
  split at h <;> cases h
  all_goals
    rename_i h3
    rw [h3]
    simp [take_branch, alu_result, BranchOp.holds, bit_getElem_zero, bne]

/-- The ALU gets the whole I-type immediate and takes a shift amount from its low bits. -/
theorem alu_imm_op {op : ImmOp} {v : Word} (h : Rv32i.imm_op w = some (op, v)) (a : Word) :
    alu_result (0#1 ++ BitVec.ofBool
      ((if funct3 w = F3_SRL_SRA then funct7 w else 0#7) == F7_SUB) ++ funct3 w) a (imm_i w) =
      op.apply a v := by
  have hsh := imm_i_shamt w
  rw [extract_shamt] at hsh
  unfold Rv32i.imm_op at h
  split at h <;> cases h
  all_goals
    -- only the shifts look at func7
    first
    | rename_i h3 h7
      rw [h3, h7]
    | rename_i h3
      rw [h3]
    simp [alu_result, ImmOp.apply, bit_eq_ite, BitVec.shiftLeft_eq', BitVec.ushiftRight_eq',
      BitVec.sshiftRight_eq', hsh]

end RiscvWorker
