import RiscvWorker.Library.AxiLite

/-! # Constants of the core

  The macros of `rv32i_params.vh`, `rv32i_control.vh`, `axi_configuration.vh`
  and `cm_commands.vh` that the modelled modules use, under their own names.
  They are simp lemmas: a comparison of two of them reduces to one of
  literals.
-/

namespace RiscvWorker

export AxiLite (Word)

/-! ### rv32i_params.vh -/

/-- Boot address (start of instruction memory). -/
@[simp] def BOOT_ADDR : Word := 0x00001000#32

/-! ### rv32i_control.vh: opcodes -/

@[simp] def OPCODE_LOAD : BitVec 7 := 0b0000011#7
@[simp] def OPCODE_OP_IMM : BitVec 7 := 0b0010011#7
@[simp] def OPCODE_AUIPC : BitVec 7 := 0b0010111#7
@[simp] def OPCODE_STORE : BitVec 7 := 0b0100011#7
@[simp] def OPCODE_OP : BitVec 7 := 0b0110011#7
@[simp] def OPCODE_LUI : BitVec 7 := 0b0110111#7
@[simp] def OPCODE_BRANCH : BitVec 7 := 0b1100011#7
@[simp] def OPCODE_JALR : BitVec 7 := 0b1100111#7
@[simp] def OPCODE_JAL : BitVec 7 := 0b1101111#7

/-! ### rv32i_control.vh: the func3 field -/

@[simp] def F3_ADD_SUB : BitVec 3 := 0b000#3
@[simp] def F3_SLL : BitVec 3 := 0b001#3
@[simp] def F3_SLTI : BitVec 3 := 0b010#3
@[simp] def F3_SLTIU : BitVec 3 := 0b011#3
@[simp] def F3_XOR : BitVec 3 := 0b100#3
@[simp] def F3_SRL_SRA : BitVec 3 := 0b101#3
@[simp] def F3_OR : BitVec 3 := 0b110#3
@[simp] def F3_AND : BitVec 3 := 0b111#3

@[simp] def F3_BYTE : BitVec 3 := 0b000#3
@[simp] def F3_HALF_WORD : BitVec 3 := 0b001#3
@[simp] def F3_WORD : BitVec 3 := 0b010#3
@[simp] def F3_BYTE_U : BitVec 3 := 0b100#3
@[simp] def F3_HALF_WORD_U : BitVec 3 := 0b101#3

@[simp] def F3_BEQ : BitVec 3 := 0b000#3
@[simp] def F3_BNE : BitVec 3 := 0b001#3
@[simp] def F3_BLT : BitVec 3 := 0b100#3
@[simp] def F3_BGE : BitVec 3 := 0b101#3
@[simp] def F3_BLTU : BitVec 3 := 0b110#3
@[simp] def F3_BGEU : BitVec 3 := 0b111#3

/-! ### rv32i_control.vh: the func7 field and ALU control -/

@[simp] def F7_SUB : BitVec 7 := 0b0100000#7

/-- `{1'b0, 1'b0, F3_ADD_SUB}` -/
@[simp] def ALU_CTRL_ADD : BitVec 5 := 0b00000#5
@[simp] def ALU_CTRL_NOP : BitVec 5 := 0b11111#5

/-! ### axi_configuration.vh -/

@[simp] def AXI_RESP_OKAY : BitVec 2 := 0b00#2
@[simp] def AXI_RESP_SLVERR : BitVec 2 := 0b10#2

/-! ### cm_commands.vh -/

@[simp] def SUB_SEL_CTRL : BitVec 4 := 0x1#4
@[simp] def SUB_SEL_REGFILE : BitVec 4 := 0x2#4
@[simp] def SUB_SEL_FAULT : BitVec 4 := 0x3#4

@[simp] def CTRL_REG_STATUS : BitVec 12 := 0x000#12
@[simp] def CTRL_REG_START : BitVec 12 := 0x004#12
@[simp] def CTRL_REG_STOP : BitVec 12 := 0x008#12
@[simp] def CTRL_REG_STEP : BitVec 12 := 0x00C#12
@[simp] def CTRL_REG_PC : BitVec 12 := 0x010#12
@[simp] def CTRL_REG_DBG_VECTOR : BitVec 12 := 0x01C#12

@[simp] def FAULT_MODE_OVERWRITE : BitVec 2 := 0b00#2
@[simp] def FAULT_MODE_XOR_MASK : BitVec 2 := 0b01#2
@[simp] def FAULT_MODE_OR_MASK : BitVec 2 := 0b10#2
@[simp] def FAULT_MODE_ANDN_MASK : BitVec 2 := 0b11#2

end RiscvWorker
