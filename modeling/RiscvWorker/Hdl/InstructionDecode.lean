import RiscvWorker.Hdl.Params

/-! # instruction_decode.v

  The combinational decoder, output by output. A Verilog slice
  `instr[hi:lo]` is `instr.extractLsb' lo (hi - lo + 1)`.
-/

namespace RiscvWorker

/-- The instruction types used inside the decoder. -/
inductive InstrType where
  | invalid
  | r
  | i
  | s
  | b
  | u
  | j
  deriving DecidableEq, Repr

/-- The outputs of the decoder. -/
structure Decoded where
  func3 : BitVec 3
  func7 : BitVec 7
  rs1_addr : BitVec 5
  rs2_addr : BitVec 5
  rd_addr : BitVec 5
  imm : Word
  alu_src1_is_pc : Bool
  alu_src2_is_imm : Bool
  use_mem : Bool
  is_branch : Bool
  is_jump : Bool
  is_jalr : Bool
  mem_is_write : Bool
  do_write_back : Bool
  alu_ctrl : BitVec 5
  deriving DecidableEq, Repr

namespace InstructionDecode

def opcode (instr : Word) : BitVec 7 := instr.extractLsb' 0 7

/-- Opcode decoder, determines the instruction type. -/
def instr_type (opcode : BitVec 7) : InstrType :=
  if opcode = OPCODE_LOAD ∨ opcode = OPCODE_OP_IMM ∨ opcode = OPCODE_JALR then .i
  else if opcode = OPCODE_AUIPC ∨ opcode = OPCODE_LUI then .u
  else if opcode = OPCODE_STORE then .s
  else if opcode = OPCODE_OP then .r
  else if opcode = OPCODE_BRANCH then .b
  else if opcode = OPCODE_JAL then .j
  else .invalid

def has_rs1 : InstrType → Bool
  | .r | .i | .s | .b => true
  | _ => false

def has_rs2 : InstrType → Bool
  | .r | .s | .b => true
  | _ => false

def has_rd : InstrType → Bool
  | .r | .i | .u | .j => true
  | _ => false

def has_func3 : InstrType → Bool
  | .r | .i | .s | .b => true
  | _ => false

/-- The func7 bits are an immediate in every I-type but the right shifts. -/
def has_func7 (opcode : BitVec 7) (func3 : BitVec 3) : InstrType → Bool
  | .r => true
  | .i => opcode == OPCODE_OP_IMM && func3 == F3_SRL_SRA
  | _ => false

/-- Construct and sign extend the immediate based on the instruction type. -/
def imm (instr : Word) : InstrType → Word
  | .r => 0#32
  | .i => BitVec.replicate 20 (instr.extractLsb' 31 1) ++ instr.extractLsb' 20 12
  | .s => BitVec.replicate 20 (instr.extractLsb' 31 1) ++ instr.extractLsb' 25 7
      ++ instr.extractLsb' 7 5
  | .b => BitVec.replicate 20 (instr.extractLsb' 31 1) ++ instr.extractLsb' 7 1
      ++ instr.extractLsb' 25 6 ++ instr.extractLsb' 8 4 ++ 0#1
  | .u => instr.extractLsb' 12 20 ++ 0#12
  | .j => BitVec.replicate 12 (instr.extractLsb' 31 1) ++ instr.extractLsb' 12 8
      ++ instr.extractLsb' 20 1 ++ instr.extractLsb' 21 10 ++ 0#1
  | .invalid => 0#32

/-- ALU control: bit 4 distinguishes OP/OP-IMM and BRANCH, bit 3 ADD/SUB and
    SRL/SRA, the low bits are func3. -/
def alu_ctrl (opcode : BitVec 7) (func7 : BitVec 7) (func3 : BitVec 3) : BitVec 5 :=
  if opcode = OPCODE_LOAD ∨ opcode = OPCODE_STORE then ALU_CTRL_ADD
  else if opcode = OPCODE_LUI ∨ opcode = OPCODE_AUIPC then ALU_CTRL_ADD
  else if opcode = OPCODE_OP ∨ opcode = OPCODE_OP_IMM then
    0#1 ++ BitVec.ofBool (func7 == F7_SUB) ++ func3
  -- a branch only compares
  else if opcode = OPCODE_BRANCH then 1#1 ++ 0#1 ++ func3
  else ALU_CTRL_NOP

end InstructionDecode

open InstructionDecode in
/-- `instruction_decode` -/
def instruction_decode (instr : Word) : Decoded :=
  let op := opcode instr
  let ty := instr_type op
  -- fields the type does not have read as zero
  let func3 := if has_func3 ty then instr.extractLsb' 12 3 else 0#3
  let func7 := if has_func7 op func3 ty then instr.extractLsb' 25 7 else 0#7
  { func3 := func3
    func7 := func7
    rs1_addr := if has_rs1 ty then instr.extractLsb' 15 5 else 0#5
    rs2_addr := if has_rs2 ty then instr.extractLsb' 20 5 else 0#5
    rd_addr := if has_rd ty then instr.extractLsb' 7 5 else 0#5
    imm := imm instr ty
    -- jumps add the PC in their own adder, so AUIPC alone needs it here
    alu_src1_is_pc := op == OPCODE_AUIPC
    alu_src2_is_imm := ty != .r && ty != .b
    use_mem := op == OPCODE_LOAD || op == OPCODE_STORE
    is_branch := op == OPCODE_BRANCH
    is_jump := op == OPCODE_JAL || op == OPCODE_JALR
    is_jalr := op == OPCODE_JALR
    mem_is_write := op == OPCODE_STORE
    do_write_back := has_rd ty
    alu_ctrl := alu_ctrl op func7 func3 }

end RiscvWorker
