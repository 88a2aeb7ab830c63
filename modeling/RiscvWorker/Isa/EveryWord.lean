import RiscvWorker.Isa.Rv32i

/-! # What the core makes of every word

  The core has no illegal instructions and no exceptions: each of the 2³²
  words has an effect, at every PC and every address. `CoreIsa.step` is this
  effect, as an instruction set of its own. It is `Rv32i.step` where that is
  defined; beyond that

  * a word with another opcode does nothing, FENCE and ECALL among them,
  * a branch of an unknown kind is never taken, a JALR of any kind jumps and
    keeps bit 0 of its target,
  * func7 tells ADD from SUB and SRL from SRA, and everything else about it
    is ignored: MUL is an ADD,
  * a misaligned store and a store of an unknown width write nothing,
  * a misaligned LW loads zero, and a load for which no byte lanes are
    selected takes what its unit still holds, which is a parameter here.
-/

namespace CoreIsa

open ByteMemory
open Rv32i (ArchState BranchOp LoadOp StoreOp ImmOp RegOp rd rs1 rs2 funct3 funct7 imm_i imm_s
  imm_b imm_u imm_j shamt exec)

/-! ### Decoding -/

/-- The one value of func7 that is told from the others. -/
def alternative (w : Word) : Bool := funct7 w == 0b0100000#7

def reg_op (w : Word) : RegOp :=
  match funct3 w with
  | 0b000#3 => if alternative w then .sub else .add
  | 0b001#3 => .sll
  | 0b010#3 => .slt
  | 0b011#3 => .sltu
  | 0b100#3 => .xor
  | 0b101#3 => if alternative w then .sra else .srl
  | 0b110#3 => .or
  | _ => .and

def imm_op (w : Word) : ImmOp × Word :=
  match funct3 w with
  | 0b000#3 => (.addi, imm_i w)
  -- the upper seven bits of a left shift are not looked at
  | 0b001#3 => (.slli, shamt w)
  | 0b010#3 => (.slti, imm_i w)
  | 0b011#3 => (.sltiu, imm_i w)
  | 0b100#3 => (.xori, imm_i w)
  | 0b101#3 => (if alternative w then .srai else .srli, shamt w)
  | 0b110#3 => (.ori, imm_i w)
  | _ => (.andi, imm_i w)

/-- The unsigned widths of the loads store as well. -/
def store_op (w : Word) : Option StoreOp :=
  match funct3 w with
  | 0b000#3 | 0b100#3 => some .sb
  | 0b001#3 | 0b101#3 => some .sh
  | 0b010#3 => some .sw
  | _ => none

/-! ### Execution -/

/-- The value a load writes to its register; `held` is what the load unit
    still holds. -/
def load_value (held : Word) (op : Option LoadOp) (m : Memory) (addr : Word) : Word :=
  match op with
  | some .lw => if addr.toNat % 4 = 0 then load_word m addr else 0#32
  | some .lh =>
    if addr.toNat % 2 = 0 then (load_half m addr).signExtend 32
    else (held.extractLsb' 0 16).signExtend 32
  | some .lhu => if addr.toNat % 2 = 0 then (load_half m addr).setWidth 32 else held
  | some op => op.read m addr
  | none => held

/-- The memory after a store. -/
def store_effect (op : Option StoreOp) (m : Memory) (addr v : Word) : Memory :=
  match op with
  | some op => if addr.toNat % op.size = 0 then op.write m addr v else m
  | none => m

/-- The effect of a word. -/
def exec_word (held : Word) (s : ArchState) (w : Word) : ArchState :=
  match w.extractLsb' 0 7 with
  | 0b0110111#7 => exec s (.lui (rd w) (imm_u w))
  | 0b0010111#7 => exec s (.auipc (rd w) (imm_u w))
  | 0b1101111#7 => exec s (.jal (rd w) (imm_j w))
  | 0b1100111#7 => (s.set_reg (rd w) (s.pc + 4#32)).goto (s.reg (rs1 w) + imm_i w)
  | 0b1100011#7 =>
    match Rv32i.branch_op w with
    | some op => exec s (.branch op (rs1 w) (rs2 w) (imm_b w))
    | none => s.goto (s.pc + 4#32)
  | 0b0000011#7 =>
    (s.set_reg (rd w)
      (load_value held (Rv32i.load_op w) s.mem (s.reg (rs1 w) + imm_i w))).goto (s.pc + 4#32)
  | 0b0100011#7 =>
    let mem := store_effect (store_op w) s.mem (s.reg (rs1 w) + imm_s w) (s.reg (rs2 w))
    { s with mem }.goto (s.pc + 4#32)
  | 0b0010011#7 => exec s (.op_imm (imm_op w).1 (rd w) (rs1 w) (imm_op w).2)
  | 0b0110011#7 => exec s (.op (reg_op w) (rd w) (rs1 w) (rs2 w))
  | _ => s.goto (s.pc + 4#32)

/-- One instruction. The fetch ignores the low two bits of the PC. -/
def step (held : Word) (s : ArchState) : ArchState := exec_word held s (read_word s.mem s.pc)

/-- `mul x1, x2, x3` adds. -/
example : reg_op 0x023100B3#32 = .add := by decide

section opcodes
variable {held : Word} {s : ArchState} {w : Word}

theorem exec_word_lui (h : w.extractLsb' 0 7 = 0b0110111#7) :
    exec_word held s w = exec s (.lui (rd w) (imm_u w)) := by
  unfold exec_word
  rw [h]
  rfl

theorem exec_word_auipc (h : w.extractLsb' 0 7 = 0b0010111#7) :
    exec_word held s w = exec s (.auipc (rd w) (imm_u w)) := by
  unfold exec_word
  rw [h]
  rfl

theorem exec_word_jal (h : w.extractLsb' 0 7 = 0b1101111#7) :
    exec_word held s w = exec s (.jal (rd w) (imm_j w)) := by
  unfold exec_word
  rw [h]
  rfl

theorem exec_word_jalr (h : w.extractLsb' 0 7 = 0b1100111#7) :
    exec_word held s w =
      (s.set_reg (rd w) (s.pc + 4#32)).goto (s.reg (rs1 w) + imm_i w) := by
  unfold exec_word
  rw [h]
  rfl

theorem exec_word_branch (h : w.extractLsb' 0 7 = 0b1100011#7) {op : BranchOp}
    (hop : Rv32i.branch_op w = some op) :
    exec_word held s w = exec s (.branch op (rs1 w) (rs2 w) (imm_b w)) := by
  unfold exec_word
  rw [h, hop]
  rfl

theorem exec_word_no_branch (h : w.extractLsb' 0 7 = 0b1100011#7)
    (hop : Rv32i.branch_op w = none) : exec_word held s w = s.goto (s.pc + 4#32) := by
  unfold exec_word
  rw [h, hop]
  rfl

theorem exec_word_load (h : w.extractLsb' 0 7 = 0b0000011#7) :
    exec_word held s w = (s.set_reg (rd w)
      (load_value held (Rv32i.load_op w) s.mem (s.reg (rs1 w) + imm_i w))).goto
        (s.pc + 4#32) := by
  unfold exec_word
  rw [h]
  rfl

theorem exec_word_store (h : w.extractLsb' 0 7 = 0b0100011#7) :
    exec_word held s w = ArchState.goto ⟨s.pc, s.x,
      store_effect (store_op w) s.mem (s.reg (rs1 w) + imm_s w) (s.reg (rs2 w))⟩
        (s.pc + 4#32) := by
  unfold exec_word
  rw [h]
  rfl

theorem exec_word_op_imm (h : w.extractLsb' 0 7 = 0b0010011#7) :
    exec_word held s w = exec s (.op_imm (imm_op w).1 (rd w) (rs1 w) (imm_op w).2) := by
  unfold exec_word
  rw [h]
  rfl

theorem exec_word_op (h : w.extractLsb' 0 7 = 0b0110011#7) :
    exec_word held s w = exec s (.op (reg_op w) (rd w) (rs1 w) (rs2 w)) := by
  unfold exec_word
  rw [h]
  rfl

end opcodes

/-! ### The supported fragment -/

theorem reg_op_of_rv32i {w : Word} {op : RegOp} (h : Rv32i.reg_op w = some op) :
    reg_op w = op := by
  unfold Rv32i.reg_op at h
  unfold reg_op alternative
  split at h <;> cases h
  all_goals
    rename_i h3 h7
    rw [h3]
    first
      | rfl
      | rw [h7]; rfl

theorem imm_op_of_rv32i {w : Word} {op : ImmOp} {v : Word} (h : Rv32i.imm_op w = some (op, v)) :
    imm_op w = (op, v) := by
  unfold Rv32i.imm_op at h
  unfold imm_op alternative
  split at h <;> cases h
  all_goals
    first
      | rename_i h3 h7
        rw [h3, h7]
        rfl
      | rename_i h3
        rw [h3]
        rfl

theorem store_op_of_rv32i {w : Word} {op : StoreOp} (h : Rv32i.store_op w = some op) :
    store_op w = some op := by
  unfold Rv32i.store_op at h
  unfold store_op
  split at h <;> cases h
  all_goals
    rename_i h3
    rw [h3]
    rfl

/-- A load whose address is a multiple of its size does not depend on what
    the unit holds. -/
theorem load_value_aligned (held : Word) (op : LoadOp) (m : Memory) {addr : Word}
    (h : addr.toNat % op.size = 0) : load_value held (some op) m addr = op.read m addr := by
  cases op with
  | lb | lbu => rfl
  | lh | lhu | lw => exact if_pos h

theorem store_effect_aligned (op : StoreOp) (m : Memory) {addr : Word} (v : Word)
    (h : addr.toNat % op.size = 0) : store_effect (some op) m addr v = op.write m addr v := if_pos h

end CoreIsa
