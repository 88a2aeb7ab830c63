import RiscvWorker.Hdl.Params

/-! # alu.v, load_store_decoder.v and byte_reader.v

  The combinational units of the execute and memory stages. Two of them
  leave a signal unassigned on some branches; there the signal keeps the
  value it had in the previous cycle, which the functions take as an
  argument (`latched_…`).
-/

namespace RiscvWorker

/-! ### alu.v -/

/-- `{31'b0, b}` -/
def bit (b : Bool) : Word := 0#31 ++ BitVec.ofBool b

/-- The `result` output. -/
def alu_result (alu_ctrl : BitVec 5) (src1 src2 : Word) : Word :=
  let shamt := src2.extractLsb' 0 5
  let eq := src1 == src2
  let lt := src1.slt src2
  let ltu := src1.ult src2
  let f3 := alu_ctrl.extractLsb' 0 3
  -- OP, OP-IMM
  if !alu_ctrl.getLsbD 4 then
    if f3 = F3_ADD_SUB then
      if !alu_ctrl.getLsbD 3 then src1 + src2 else src1 - src2
    else if f3 = F3_AND then src1 &&& src2
    else if f3 = F3_OR then src1 ||| src2
    else if f3 = F3_XOR then src1 ^^^ src2
    else if f3 = F3_SLTI then bit lt
    else if f3 = F3_SLTIU then bit ltu
    else if f3 = F3_SLL then src1 <<< shamt
    else if f3 = F3_SRL_SRA then
      if !alu_ctrl.getLsbD 3 then src1 >>> shamt else src1.sshiftRight' shamt
    else 0#32
  -- BRANCH: the comparison is bit 0 of the result
  else if !alu_ctrl.getLsbD 3 then
    if f3 = F3_BEQ then bit eq
    else if f3 = F3_BNE then bit (!eq)
    else if f3 = F3_BLT then bit lt
    else if f3 = F3_BGE then bit (!lt)
    else if f3 = F3_BLTU then bit ltu
    else if f3 = F3_BGEU then bit (!ltu)
    else 0#32
  else 0#32

/-- The `take_branch` output. -/
def take_branch (alu_ctrl : BitVec 5) (src1 src2 : Word) : Bool :=
  (alu_result alu_ctrl src1 src2).getLsbD 0

/-! ### load_store_decoder.v -/

namespace LoadStoreDecoder

/-- The byte lanes an access selects. -/
def byte_enb (alu_result_addr : Word) (func3 : BitVec 3) : BitVec 4 :=
  let addr_offset := alu_result_addr.extractLsb' 0 2
  if func3 = F3_BYTE ∨ func3 = F3_BYTE_U then
    if addr_offset = 0b00#2 then 0b0001#4
    else if addr_offset = 0b01#2 then 0b0010#4
    else if addr_offset = 0b10#2 then 0b0100#4
    else 0b1000#4
  else if func3 = F3_HALF_WORD ∨ func3 = F3_HALF_WORD_U then
    if addr_offset = 0b00#2 then 0b0011#4
    else if addr_offset = 0b10#2 then 0b1100#4
    -- a half word at an odd address selects no lane
    else 0b0000#4
  else if func3 = F3_WORD then
    if addr_offset = 0b00#2 then 0b1111#4 else 0b0000#4
  else 0b0000#4

/-- The store data in its byte lanes; not assigned for misaligned half words
    and unknown widths. -/
def data (latched_data : Word) (alu_result_addr : Word) (func3 : BitVec 3)
    (reg_read : Word) : Word :=
  let addr_offset := alu_result_addr.extractLsb' 0 2
  if func3 = F3_BYTE ∨ func3 = F3_BYTE_U then
    if addr_offset = 0b00#2 then reg_read &&& 0x000000FF#32
    else if addr_offset = 0b01#2 then (reg_read &&& 0x000000FF#32) <<< 8
    else if addr_offset = 0b10#2 then (reg_read &&& 0x000000FF#32) <<< 16
    else (reg_read &&& 0x000000FF#32) <<< 24
  else if func3 = F3_HALF_WORD ∨ func3 = F3_HALF_WORD_U then
    if addr_offset = 0b00#2 then reg_read &&& 0x0000FFFF#32
    else if addr_offset = 0b10#2 then (reg_read &&& 0x0000FFFF#32) <<< 16
    -- no branch of the source assigns the data here
    else latched_data
  else if func3 = F3_WORD then reg_read
  else latched_data

end LoadStoreDecoder

/-! ### byte_reader.v -/

namespace ByteReader

/-- One byte of `masked_data`. -/
def masked_byte (mem_data : Word) (byte_mask : BitVec 4) (i : Nat) : BitVec 8 :=
  if byte_mask.getLsbD i then mem_data.extractLsb' (i * 8) 8 else 0x0#8

def masked_data (mem_data : Word) (byte_mask : BitVec 4) : Word :=
  masked_byte mem_data byte_mask 3 ++ masked_byte mem_data byte_mask 2
    ++ masked_byte mem_data byte_mask 1 ++ masked_byte mem_data byte_mask 0

/-- The selected bytes moved down to bit 0; not assigned for masks that do
    not fit the width. -/
def shifted_data (latched_shifted : Word) (mem_data : Word) (func3 : BitVec 3)
    (byte_mask : BitVec 4) : Word :=
  let masked := masked_data mem_data byte_mask
  if func3 = F3_WORD then masked
  else if func3 = F3_BYTE ∨ func3 = F3_BYTE_U then
    if byte_mask = 0b0001#4 then masked
    else if byte_mask = 0b0010#4 then masked >>> 8
    else if byte_mask = 0b0100#4 then masked >>> 16
    else if byte_mask = 0b1000#4 then masked >>> 24
    -- no branch assigns the shifted data for other masks
    else latched_shifted
  else if func3 = F3_HALF_WORD ∨ func3 = F3_HALF_WORD_U then
    if byte_mask = 0b0011#4 then masked
    else if byte_mask = 0b1100#4 then masked >>> 16
    else latched_shifted
  else latched_shifted

/-- The sign or zero extended result. -/
def wb_data (latched_wb : Word) (shifted_data : Word) (func3 : BitVec 3) : Word :=
  let sign_ext := !func3.getLsbD 2
  if func3 = F3_WORD then shifted_data
  else if func3 = F3_BYTE ∨ func3 = F3_BYTE_U then
    if sign_ext then
      BitVec.replicate 24 (shifted_data.extractLsb' 7 1) ++ shifted_data.extractLsb' 0 8
    else shifted_data
  else if func3 = F3_HALF_WORD ∨ func3 = F3_HALF_WORD_U then
    if sign_ext then
      BitVec.replicate 16 (shifted_data.extractLsb' 15 1) ++ shifted_data.extractLsb' 0 16
    else shifted_data
  else latched_wb

end ByteReader

end RiscvWorker
