import RiscvWorker.Hdl.InstructionDecode
import RiscvWorker.Hdl.Datapath
import RiscvWorker.Hdl.RegisterFile
import RiscvWorker.Hdl.MemoryArbiter

/-! # riscv_cpu.v

  The core: PC generator, valid/ready chain, register file, arbiter and the
  combinational datapath between them. The state also holds the three
  signals of the datapath that keep their value where no branch assigns
  them.
-/

namespace RiscvWorker

open AxiLite (Master Slave)

/-- The registers (and latches) of `riscv_cpu`. -/
structure RiscvCpu where
  pc : Word
  pc_release_pending : Bool
  /-- The stall was released for the current PC. -/
  pc_stall_released : Bool
  instruction_latched : Word
  decoded_valid : Bool
  alu_result_valid : Bool
  next_pc_valid : Bool
  register_file : RegisterFile
  memory_arbiter : MemoryArbiter
  /-- Last value of `load_store_decoder.data`. -/
  latched_data : Word
  /-- Last value of `byte_reader.shifted_data`. -/
  latched_shifted : Word
  /-- Last value of `byte_reader.wb_data`. -/
  latched_wb : Word

/-- What the control module drives during one cycle. -/
structure CmPort where
  cm_pc_stall : Bool
  cm_pc_we : Bool
  cm_pc_write_data : Word
  cm_regfile_addr : BitVec 5
  cm_regfile_we : Bool
  cm_regfile_write_data : Word
  cm_regfile_fault_addr : BitVec 5
  cm_regfile_fault_mode : BitVec 2
  cm_regfile_fault_mask : Word
  cm_regfile_fault_enable : Bool
  deriving DecidableEq, Repr

namespace RiscvCpu

/-- The inputs of one cycle: the slave on the memory port and the control
    module. -/
structure Input where
  m_axi : Slave
  cm : CmPort
  deriving DecidableEq, Repr

variable (s : RiscvCpu)

/-! ### Decode, execute, memory and write back: functions of the registers -/

def decoded : Decoded := instruction_decode s.instruction_latched

def rs1 : Word := s.register_file.read s.decoded.rs1_addr
def rs2 : Word := s.register_file.read s.decoded.rs2_addr

def alu_src1 : Word := if s.decoded.alu_src1_is_pc then s.pc else s.rs1
def alu_src2 : Word := if s.decoded.alu_src2_is_imm then s.decoded.imm else s.rs2

/-- Output `result` of `u_alu`. -/
def alu_out : Word := alu_result s.decoded.alu_ctrl s.alu_src1 s.alu_src2

/-- Output `take_branch` of `u_alu`. -/
def branch_taken : Bool := take_branch s.decoded.alu_ctrl s.alu_src1 s.alu_src2

def mem_write_strobe : BitVec 4 := LoadStoreDecoder.byte_enb s.alu_out s.decoded.func3

def mem_write_data : Word :=
  LoadStoreDecoder.data s.latched_data s.alu_out s.decoded.func3 s.rs2

def mem_addr_aux : Word := if s.decoded.use_mem then s.rs1 + s.decoded.imm else 0#32

/-- Stores address whole words, loads keep the byte offset. -/
def mem_addr : Word :=
  -- the byte lanes of a store are in its strobe
  if s.decoded.mem_is_write then s.mem_addr_aux.extractLsb' 2 30 ++ 0b00#2
  else s.mem_addr_aux

def shifted_data : Word :=
  ByteReader.shifted_data s.latched_shifted s.memory_arbiter.load_data s.decoded.func3
    s.mem_write_strobe

def mem_wb_data : Word := ByteReader.wb_data s.latched_wb s.shifted_data s.decoded.func3

def pc_plus_4 : Word := s.pc + 4#32

def write_back_data : Word :=
  -- the link register of JAL and JALR
  if s.decoded.is_jump then s.pc_plus_4
  else if s.decoded.use_mem then s.mem_wb_data
  else s.alu_out

def next_pc : Word :=
  -- JALR does not clear bit 0 of its target
  if s.decoded.is_jump then (if s.decoded.is_jalr then s.rs1 else s.pc) + s.decoded.imm
  else if s.decoded.use_mem then s.pc_plus_4
  else if s.decoded.is_branch && s.branch_taken then s.pc + s.decoded.imm
  else s.pc_plus_4

/-! ### Handshakes -/

variable (i : Input)

def next_pc_ready : Bool := !s.pc_release_pending

def pc_valid : Bool := s.pc_release_pending && (!i.cm.cm_pc_stall || s.pc_stall_released)

/-- The inputs of `u_memory_arbiter`; `instruction_ready` is tied high. -/
def arbiter_input : MemoryArbiter.Input where
  m_axi := i.m_axi
  pc_valid := s.pc_valid i
  pc := s.pc
  instruction_ready := true
  load_store_valid := s.decoded_valid && s.decoded.use_mem
  load_store_addr := s.mem_addr
  load_store_is_write := s.decoded.mem_is_write
  store_strobe := s.mem_write_strobe
  store_data := s.mem_write_data

/-- The memory port. -/
def m_axi : Master := s.memory_arbiter.m_axi (s.arbiter_input i)

def pc_ready : Bool := s.memory_arbiter.pc_ready (s.arbiter_input i)

def instruction_valid : Bool := s.memory_arbiter.instruction_valid (s.arbiter_input i)

def instruction : Word := s.memory_arbiter.instruction (s.arbiter_input i)

def decoded_ready : Bool :=
  if s.decoded.use_mem then s.memory_arbiter.load_store_ready (s.arbiter_input i) else true

/-- `execute_result_ready` is tied high, so a valid result is a transaction. -/
def execute_result_valid : Bool :=
  if s.decoded.use_mem then s.memory_arbiter.load_store_result_valid else s.alu_result_valid

/-! ### Transactions -/

def pc_transaction : Bool := s.pc_valid i && s.pc_ready i

def next_pc_transaction : Bool := s.next_pc_valid && s.next_pc_ready

def decoded_transaction : Bool := s.decoded_valid && s.decoded_ready i

/-- The write ports of `u_register_file`. -/
def register_file_input : RegisterFile.Input where
  write_enable := s.decoded.do_write_back && s.next_pc_valid && s.next_pc_ready
  write_addr := s.decoded.rd_addr
  write_data := s.write_back_data
  extra_addr := i.cm.cm_regfile_addr
  extra_write_enable := i.cm.cm_regfile_we
  extra_write_data := i.cm.cm_regfile_write_data
  fault_write_enable := i.cm.cm_regfile_fault_enable
  fault_addr := i.cm.cm_regfile_fault_addr
  fault_mode := i.cm.cm_regfile_fault_mode
  fault_mask := i.cm.cm_regfile_fault_mask

/-- `cm_debug_vector` -/
def cm_debug_vector : Word :=
  0#3 ++ BitVec.ofBool s.next_pc_valid ++ 0#3 ++ BitVec.ofBool s.next_pc_ready
    ++ 0#3 ++ BitVec.ofBool (s.pc_valid i) ++ 0#3 ++ BitVec.ofBool (s.pc_ready i)
    ++ 0#3 ++ BitVec.ofBool s.pc_release_pending ++ s.next_pc.extractLsb' 0 4
    ++ s.pc.extractLsb' 0 8

/-! ### Clock edge -/

/-- The values after reset. The latches are transparent in the reset state,
    so their old value does not matter there. -/
def reset : RiscvCpu where
  pc := BOOT_ADDR
  pc_release_pending := true
  pc_stall_released := false
  instruction_latched := 0#32
  decoded_valid := false
  alu_result_valid := false
  next_pc_valid := false
  register_file := RegisterFile.reset
  memory_arbiter := MemoryArbiter.reset
  latched_data := 0#32
  latched_shifted := 0#32
  latched_wb := 0#32

def pc' : Word :=
  if s.next_pc_transaction then s.next_pc
  else if s.pc_transaction i then s.pc
  -- the debug write comes last, and only under the stall
  else if i.cm.cm_pc_stall && i.cm.cm_pc_we then i.cm.cm_pc_write_data
  else s.pc

def pc_release_pending' : Bool :=
  if s.next_pc_transaction then true
  else if s.pc_transaction i then false
  else s.pc_release_pending

def pc_stall_released' : Bool :=
  if s.next_pc_transaction then false
  else if s.pc_transaction i then false
  -- the release is remembered until the fetch takes the PC
  else if s.pc_release_pending && !i.cm.cm_pc_stall then true
  else s.pc_stall_released

def decoded_valid' : Bool :=
  if s.instruction_valid i then true
  else if s.decoded_transaction i then false
  else s.decoded_valid

def alu_result_valid' : Bool :=
  if s.decoded_transaction i then
    if !s.decoded.use_mem then true else s.alu_result_valid
  else if s.execute_result_valid then false
  else s.alu_result_valid

def next_pc_valid' : Bool :=
  -- the result is there for one cycle, so it is taken at once
  if s.execute_result_valid then true
  else if s.next_pc_transaction then false
  else s.next_pc_valid

/-- One clock edge. -/
def next : RiscvCpu where
  pc := s.pc' i
  pc_release_pending := s.pc_release_pending' i
  pc_stall_released := s.pc_stall_released' i
  instruction_latched := if s.instruction_valid i then s.instruction i else s.instruction_latched
  decoded_valid := s.decoded_valid' i
  alu_result_valid := s.alu_result_valid' i
  next_pc_valid := s.next_pc_valid'
  register_file := s.register_file.next (s.register_file_input i)
  memory_arbiter := s.memory_arbiter.next (s.arbiter_input i)
  latched_data := s.mem_write_data
  latched_shifted := s.shifted_data
  latched_wb := s.mem_wb_data

end RiscvCpu

end RiscvWorker
