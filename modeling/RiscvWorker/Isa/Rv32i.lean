import RiscvWorker.Library.ByteMemory

/-! # Reference semantics of RV32I

  The 37 instructions the core supports, over a program counter, 32
  registers and a byte-addressed little-endian memory. Nothing here is taken
  from the hardware description; it is what the core is compared with.

  `step` is partial: it is undefined where the program leaves the supported
  fragment (an unknown instruction word, a misaligned access, or a taken
  target that is not a multiple of four).
-/

namespace Rv32i

open ByteMemory

abbrev Reg : Type := BitVec 5

/-! ### Instructions -/

inductive BranchOp where
  | beq | bne | blt | bge | bltu | bgeu
  deriving DecidableEq, Repr

inductive LoadOp where
  | lb | lh | lw | lbu | lhu
  deriving DecidableEq, Repr

inductive StoreOp where
  | sb | sh | sw
  deriving DecidableEq, Repr

inductive ImmOp where
  | addi | slti | sltiu | xori | ori | andi | slli | srli | srai
  deriving DecidableEq, Repr

inductive RegOp where
  | add | sub | sll | slt | sltu | xor | srl | sra | or | and
  deriving DecidableEq, Repr

/-- An instruction with its immediate already extended to 32 bits (for the
    immediate shifts: the shift amount). -/
inductive Instr where
  | lui (rd : Reg) (imm : Word)
  | auipc (rd : Reg) (imm : Word)
  | jal (rd : Reg) (imm : Word)
  | jalr (rd rs1 : Reg) (imm : Word)
  | branch (op : BranchOp) (rs1 rs2 : Reg) (imm : Word)
  | load (op : LoadOp) (rd rs1 : Reg) (imm : Word)
  | store (op : StoreOp) (rs1 rs2 : Reg) (imm : Word)
  | op_imm (op : ImmOp) (rd rs1 : Reg) (imm : Word)
  | op (op : RegOp) (rd rs1 rs2 : Reg)
  deriving DecidableEq, Repr

/-! ### Decoding -/

def rd (w : Word) : Reg := w.extractLsb' 7 5
def rs1 (w : Word) : Reg := w.extractLsb' 15 5
def rs2 (w : Word) : Reg := w.extractLsb' 20 5
def funct3 (w : Word) : BitVec 3 := w.extractLsb' 12 3
def funct7 (w : Word) : BitVec 7 := w.extractLsb' 25 7

def imm_i (w : Word) : Word := (w.extractLsb' 20 12).signExtend 32

def imm_s (w : Word) : Word := (w.extractLsb' 25 7 ++ w.extractLsb' 7 5).signExtend 32

def imm_b (w : Word) : Word :=
  (w.extractLsb' 31 1 ++ w.extractLsb' 7 1 ++ w.extractLsb' 25 6 ++ w.extractLsb' 8 4
    ++ 0#1).signExtend 32

def imm_u (w : Word) : Word := w.extractLsb' 12 20 ++ 0#12

def imm_j (w : Word) : Word :=
  (w.extractLsb' 31 1 ++ w.extractLsb' 12 8 ++ w.extractLsb' 20 1 ++ w.extractLsb' 21 10
    ++ 0#1).signExtend 32

def shamt (w : Word) : Word := (w.extractLsb' 20 5).setWidth 32

def branch_op (w : Word) : Option BranchOp :=
  match funct3 w with
  | 0b000#3 => some .beq
  | 0b001#3 => some .bne
  | 0b100#3 => some .blt
  | 0b101#3 => some .bge
  | 0b110#3 => some .bltu
  | 0b111#3 => some .bgeu
  | _ => none

def load_op (w : Word) : Option LoadOp :=
  match funct3 w with
  | 0b000#3 => some .lb
  | 0b001#3 => some .lh
  | 0b010#3 => some .lw
  | 0b100#3 => some .lbu
  | 0b101#3 => some .lhu
  | _ => none

def store_op (w : Word) : Option StoreOp :=
  match funct3 w with
  | 0b000#3 => some .sb
  | 0b001#3 => some .sh
  | 0b010#3 => some .sw
  | _ => none

/-- The operation and the immediate of an OP-IMM word. -/
def imm_op (w : Word) : Option (ImmOp × Word) :=
  match funct3 w, funct7 w with
  | 0b000#3, _ => some (.addi, imm_i w)
  | 0b010#3, _ => some (.slti, imm_i w)
  | 0b011#3, _ => some (.sltiu, imm_i w)
  | 0b100#3, _ => some (.xori, imm_i w)
  | 0b110#3, _ => some (.ori, imm_i w)
  | 0b111#3, _ => some (.andi, imm_i w)
  -- the upper seven bits of a shift are not part of its immediate
  | 0b001#3, 0b0000000#7 => some (.slli, shamt w)
  | 0b101#3, 0b0000000#7 => some (.srli, shamt w)
  | 0b101#3, 0b0100000#7 => some (.srai, shamt w)
  | _, _ => none

def reg_op (w : Word) : Option RegOp :=
  match funct3 w, funct7 w with
  | 0b000#3, 0b0000000#7 => some .add
  | 0b000#3, 0b0100000#7 => some .sub
  | 0b001#3, 0b0000000#7 => some .sll
  | 0b010#3, 0b0000000#7 => some .slt
  | 0b011#3, 0b0000000#7 => some .sltu
  | 0b100#3, 0b0000000#7 => some .xor
  | 0b101#3, 0b0000000#7 => some .srl
  | 0b101#3, 0b0100000#7 => some .sra
  | 0b110#3, 0b0000000#7 => some .or
  | 0b111#3, 0b0000000#7 => some .and
  | _, _ => none

/-- The instruction a word encodes, if it is one of the 37. -/
def decode (w : Word) : Option Instr :=
  match w.extractLsb' 0 7 with
  | 0b0110111#7 => some (.lui (rd w) (imm_u w))
  | 0b0010111#7 => some (.auipc (rd w) (imm_u w))
  | 0b1101111#7 => some (.jal (rd w) (imm_j w))
  | 0b1100111#7 => if funct3 w = 0b000#3 then some (.jalr (rd w) (rs1 w) (imm_i w)) else none
  | 0b1100011#7 => (branch_op w).map fun op => .branch op (rs1 w) (rs2 w) (imm_b w)
  | 0b0000011#7 => (load_op w).map fun op => .load op (rd w) (rs1 w) (imm_i w)
  | 0b0100011#7 => (store_op w).map fun op => .store op (rs1 w) (rs2 w) (imm_s w)
  | 0b0010011#7 => (imm_op w).map fun p => .op_imm p.1 (rd w) (rs1 w) p.2
  | 0b0110011#7 => (reg_op w).map fun op => .op op (rd w) (rs1 w) (rs2 w)
  | _ => none

/-! ### Execution -/

/-- The architectural state; `x` is read and written through `reg` and
    `set_reg`, for which x0 is zero. -/
structure ArchState where
  pc : Word
  x : Reg → Word
  mem : Memory

namespace ArchState

def reg (s : ArchState) (r : Reg) : Word := if r = 0#5 then 0#32 else s.x r

def set_reg (s : ArchState) (r : Reg) (v : Word) : ArchState :=
  if r = 0#5 then s else { s with x := fun a => if a = r then v else s.x a }

/-- Go on with the instruction at `target`. -/
def goto (s : ArchState) (target : Word) : ArchState := { s with pc := target }

end ArchState

def BranchOp.holds (op : BranchOp) (a b : Word) : Bool :=
  match op with
  | .beq => a == b
  | .bne => a != b
  | .blt => a.slt b
  | .bge => !a.slt b
  | .bltu => a.ult b
  | .bgeu => !a.ult b

def ImmOp.apply (op : ImmOp) (a imm : Word) : Word :=
  match op with
  | .addi => a + imm
  | .slti => if a.slt imm then 1#32 else 0#32
  | .sltiu => if a.ult imm then 1#32 else 0#32
  | .xori => a ^^^ imm
  | .ori => a ||| imm
  | .andi => a &&& imm
  | .slli => a <<< imm.toNat
  | .srli => a >>> imm.toNat
  | .srai => a.sshiftRight imm.toNat

/-- Register shifts use the low five bits of rs2. -/
def RegOp.apply (op : RegOp) (a b : Word) : Word :=
  match op with
  | .add => a + b
  | .sub => a - b
  | .sll => a <<< (b.toNat % 32)
  | .slt => if a.slt b then 1#32 else 0#32
  | .sltu => if a.ult b then 1#32 else 0#32
  | .xor => a ^^^ b
  | .srl => a >>> (b.toNat % 32)
  | .sra => a.sshiftRight (b.toNat % 32)
  | .or => a ||| b
  | .and => a &&& b

/-- The value a load writes to its register. -/
def LoadOp.read (op : LoadOp) (m : Memory) (addr : Word) : Word :=
  match op with
  | .lb => (m addr).signExtend 32
  | .lh => (load_half m addr).signExtend 32
  | .lw => load_word m addr
  | .lbu => (m addr).setWidth 32
  | .lhu => (load_half m addr).setWidth 32

def LoadOp.size : LoadOp → Nat
  | .lb | .lbu => 1
  | .lh | .lhu => 2
  | .lw => 4

/-- The memory after a store. -/
def StoreOp.write (op : StoreOp) (m : Memory) (addr v : Word) : Memory :=
  match op with
  | .sb => store_byte m addr v
  | .sh => store_half m addr v
  | .sw => store_word m addr v

def StoreOp.size : StoreOp → Nat
  | .sb => 1
  | .sh => 2
  | .sw => 4

def exec (s : ArchState) : Instr → ArchState
  | .lui rd imm => (s.set_reg rd imm).goto (s.pc + 4#32)
  | .auipc rd imm => (s.set_reg rd (s.pc + imm)).goto (s.pc + 4#32)
  | .jal rd imm => (s.set_reg rd (s.pc + 4#32)).goto (s.pc + imm)
  -- the target is computed from the old registers: `rd` may be `rs1`
  | .jalr rd rs1 imm =>
    (s.set_reg rd (s.pc + 4#32)).goto ((s.reg rs1 + imm) &&& 0xFFFFFFFE#32)
  | .branch op rs1 rs2 imm =>
    s.goto (if op.holds (s.reg rs1) (s.reg rs2) then s.pc + imm else s.pc + 4#32)
  | .load op rd rs1 imm =>
    (s.set_reg rd (op.read s.mem (s.reg rs1 + imm))).goto (s.pc + 4#32)
  | .store op rs1 rs2 imm =>
    { s with mem := op.write s.mem (s.reg rs1 + imm) (s.reg rs2) }.goto (s.pc + 4#32)
  | .op_imm op rd rs1 imm => (s.set_reg rd (op.apply (s.reg rs1) imm)).goto (s.pc + 4#32)
  | .op op rd rs1 rs2 =>
    (s.set_reg rd (op.apply (s.reg rs1) (s.reg rs2))).goto (s.pc + 4#32)

/-! ### The supported fragment -/

/-- Loads and stores are naturally aligned, taken targets are multiples of
    four. -/
def aligned (s : ArchState) : Instr → Bool
  | .jal _ imm => (s.pc + imm).toNat % 4 == 0
  | .jalr _ rs1 imm => (s.reg rs1 + imm).toNat % 4 == 0
  -- a branch that is not taken has no target
  | .branch op rs1 rs2 imm =>
    !op.holds (s.reg rs1) (s.reg rs2) || (s.pc + imm).toNat % 4 == 0
  | .load op _ rs1 imm => (s.reg rs1 + imm).toNat % op.size == 0
  | .store op rs1 _ imm => (s.reg rs1 + imm).toNat % op.size == 0
  | _ => true

/-- One instruction. -/
def step (s : ArchState) : Option ArchState :=
  if s.pc.toNat % 4 = 0 then
    (decode (load_word s.mem s.pc)).bind fun i => if aligned s i then some (exec s i) else none
  else none

/-- The three ways to read a defined step: the PC is aligned, the word is an
    instruction, and the instruction is aligned. -/
theorem step_eq_some {s s' : ArchState} (h : step s = some s') :
    ∃ i, s.pc.toNat % 4 = 0 ∧ decode (load_word s.mem s.pc) = some i ∧ aligned s i = true ∧
      s' = exec s i := by
  unfold step at h
  split at h
  · rename_i hpc
    obtain ⟨i, hdec, hi⟩ := Option.bind_eq_some_iff.mp h
    split at hi
    · rename_i hal
      exact ⟨i, hpc, hdec, hal, (Option.some.inj hi).symm⟩
    · exact absurd hi (by simp)
  · exact absurd h (by simp)

end Rv32i
