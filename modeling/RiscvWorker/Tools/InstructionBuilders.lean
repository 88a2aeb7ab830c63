import RiscvWorker.Library.PyInt
import RiscvWorker.Core.Decoding

/-! # bitops.py

  The instruction builders of the test benches, on Python's integers, and
  the hardware decoder applied to what they build.
-/

namespace RiscvWorker

open PyInt
open InstructionDecode (opcode imm)

/-! ### The builders -/

def to_32b (val : Int) : Int := val &&& 0xFFFFFFFF

def build_rtype (funct7 rs2 rs1 funct3 rd opcode : Int) : Int :=
  funct7.shiftLeft 25 ||| rs2.shiftLeft 20 ||| rs1.shiftLeft 15 ||| funct3.shiftLeft 12
    ||| rd.shiftLeft 7 ||| opcode

def build_itype (imm rs1 funct3 rd opcode : Int) : Int :=
  (imm &&& 0xFFF).shiftLeft 20 ||| rs1.shiftLeft 15 ||| funct3.shiftLeft 12
    ||| rd.shiftLeft 7 ||| opcode

def build_stype (imm rs2 rs1 funct3 opcode : Int) : Int :=
  let imm_11_5 := imm.shiftRight 5 &&& 0x7F
  let imm_4_0 := imm &&& 0x1F
  imm_11_5.shiftLeft 25 ||| rs2.shiftLeft 20 ||| rs1.shiftLeft 15 ||| funct3.shiftLeft 12
    ||| imm_4_0.shiftLeft 7 ||| opcode

def build_btype (imm rs2 rs1 funct3 opcode : Int) : Int :=
  let imm_12 := imm.shiftRight 12 &&& 0x1
  let imm_11 := imm.shiftRight 11 &&& 0x1
  let imm_10_5 := imm.shiftRight 5 &&& 0x3F
  let imm_4_1 := imm.shiftRight 1 &&& 0xF
  imm_12.shiftLeft 31 ||| imm_10_5.shiftLeft 25 ||| rs2.shiftLeft 20 ||| rs1.shiftLeft 15
    ||| funct3.shiftLeft 12 ||| imm_4_1.shiftLeft 8 ||| imm_11.shiftLeft 7 ||| opcode

def build_utype (imm rd opcode : Int) : Int :=
  (imm &&& 0xFFFFF000) ||| rd.shiftLeft 7 ||| opcode

def build_jtype (imm rd opcode : Int) : Int :=
  let imm_20 := imm.shiftRight 20 &&& 0x1
  let imm_19_12 := imm.shiftRight 12 &&& 0xFF
  let imm_11 := imm.shiftRight 11 &&& 0x1
  let imm_10_1 := imm.shiftRight 1 &&& 0x3FF
  imm_20.shiftLeft 31 ||| imm_10_1.shiftLeft 21 ||| imm_11.shiftLeft 20
    ||| imm_19_12.shiftLeft 12 ||| rd.shiftLeft 7 ||| opcode

/-! ### The built words

  Each builder writes the concatenation of its fields. A field is given by
  its bits, an immediate by the slices of its 32-bit pattern.
-/

/-- The 32-bit pattern of a number. -/
def pattern (v : Int) : Word := BitVec.ofInt 32 v

theorem to_32b_eq (v : Int) : to_32b v = ((pattern v).toNat : Int) := and_mask v 32

theorem imm_field (v : Int) {s k : Nat} (hsk : s + k ≤ 32) :
    v.shiftRight s &&& ((2 ^ k - 1 : Nat) : Int) = (((pattern v).extractLsb' s k).toNat : Int) :=
  shiftRight_and_mask v hsk

theorem imm_low_field (v : Int) {k : Nat} (hk : k ≤ 32) :
    v &&& ((2 ^ k - 1 : Nat) : Int) = (((pattern v).extractLsb' 0 k).toNat : Int) := by
  have h := @imm_field v 0 k (by omega)
  rwa [show v.shiftRight 0 = v from Int.shiftRight_zero v] at h

/-- The mask of an upper immediate clears the low 12 bits. -/
theorem and_upper_mask (u : Word) : u &&& 0xFFFFF000#32 = u.extractLsb' 12 20 ++ 0#12 := by
  have hmask : 0xFFFFF000#32 = BitVec.allOnes 32 <<< 12 := by decide
  apply BitVec.eq_of_getLsbD_eq
  intro j hj
  rw [hmask, BitVec.getLsbD_and, BitVec.getLsbD_shiftLeft, BitVec.getLsbD_allOnes,
    BitVec.getLsbD_append, BitVec.getLsbD_extractLsb']
  by_cases hlow : j < 12
  · simp [hlow]
  · have hback : 12 + (j - 12) = j := by omega
    have hfit : j - 12 < 20 := by omega
    have hone : j - 12 < 32 := by omega
    simp [hlow, hj, hback, hfit, hone]

theorem imm_upper_field (v : Int) :
    v &&& 0xFFFFF000 = (((pattern v).extractLsb' 12 20 ++ 0#12 : Word).toNat : Int) := by
  have h : v &&& ((0xFFFFF000 : Nat) : Int) = _ := @and_natCast v 0xFFFFF000 32 (by decide)
  rw [← and_upper_mask, BitVec.toNat_and]
  exact h

/-- The word of `build_rtype`. -/
def rtype (funct7 : BitVec 7) (rs2 rs1 : BitVec 5) (funct3 : BitVec 3) (rd : BitVec 5)
    (op : BitVec 7) : Word :=
  funct7 ++ rs2 ++ rs1 ++ funct3 ++ rd ++ op

def itype (u : Word) (rs1 : BitVec 5) (funct3 : BitVec 3) (rd : BitVec 5) (op : BitVec 7) :
    Word :=
  u.extractLsb' 0 12 ++ rs1 ++ funct3 ++ rd ++ op

def stype (u : Word) (rs2 rs1 : BitVec 5) (funct3 : BitVec 3) (op : BitVec 7) : Word :=
  u.extractLsb' 5 7 ++ rs2 ++ rs1 ++ funct3 ++ u.extractLsb' 0 5 ++ op

def btype (u : Word) (rs2 rs1 : BitVec 5) (funct3 : BitVec 3) (op : BitVec 7) : Word :=
  u.extractLsb' 12 1 ++ u.extractLsb' 5 6 ++ rs2 ++ rs1 ++ funct3 ++ u.extractLsb' 1 4
    ++ u.extractLsb' 11 1 ++ op

def utype (u : Word) (rd : BitVec 5) (op : BitVec 7) : Word := u.extractLsb' 12 20 ++ rd ++ op

def jtype (u : Word) (rd : BitVec 5) (op : BitVec 7) : Word :=
  u.extractLsb' 20 1 ++ u.extractLsb' 1 10 ++ u.extractLsb' 11 1 ++ u.extractLsb' 12 8 ++ rd
    ++ op

section words
variable (v : Int) (funct7 op : BitVec 7) (rs2 rs1 rd : BitVec 5) (funct3 : BitVec 3)

theorem build_rtype_eq :
    build_rtype funct7.toNat rs2.toNat rs1.toNat funct3.toNat rd.toNat op.toNat =
      ((rtype funct7 rs2 rs1 funct3 rd op).toNat : Int) := by
  simp only [rtype, BitVec.toNat_append, build_rtype, shiftLeft_natCast, or_natCast,
    Nat.shiftLeft_or_distrib, ← Nat.shiftLeft_add]

theorem build_itype_eq :
    build_itype v rs1.toNat funct3.toNat rd.toNat op.toNat =
      ((itype (pattern v) rs1 funct3 rd op).toNat : Int) := by
  have hi : v &&& 0xFFF = (((pattern v).extractLsb' 0 12).toNat : Int) := @imm_low_field v 12 (by decide)
  simp only [itype, BitVec.toNat_append, build_itype, hi, shiftLeft_natCast, or_natCast,
    Nat.shiftLeft_or_distrib, ← Nat.shiftLeft_add]

theorem build_stype_eq :
    build_stype v rs2.toNat rs1.toNat funct3.toNat op.toNat =
      ((stype (pattern v) rs2 rs1 funct3 op).toNat : Int) := by
  have h5 : v.shiftRight 5 &&& 0x7F = _ := @imm_field v 5 7 (by decide)
  have h0 : v &&& 0x1F = (((pattern v).extractLsb' 0 5).toNat : Int) := @imm_low_field v 5 (by decide)
  simp only [stype, BitVec.toNat_append, build_stype, h5, h0, shiftLeft_natCast, or_natCast,
    Nat.shiftLeft_or_distrib, ← Nat.shiftLeft_add]

theorem build_btype_eq :
    build_btype v rs2.toNat rs1.toNat funct3.toNat op.toNat =
      ((btype (pattern v) rs2 rs1 funct3 op).toNat : Int) := by
  have h12 : v.shiftRight 12 &&& 0x1 = _ := @imm_field v 12 1 (by decide)
  have h11 : v.shiftRight 11 &&& 0x1 = _ := @imm_field v 11 1 (by decide)
  have h5 : v.shiftRight 5 &&& 0x3F = _ := @imm_field v 5 6 (by decide)
  have h1 : v.shiftRight 1 &&& 0xF = _ := @imm_field v 1 4 (by decide)
  simp only [btype, BitVec.toNat_append, build_btype, h12, h11, h5, h1, shiftLeft_natCast,
    or_natCast, Nat.shiftLeft_or_distrib, ← Nat.shiftLeft_add]

theorem build_utype_eq :
    build_utype v rd.toNat op.toNat = ((utype (pattern v) rd op).toNat : Int) := by
  simp only [utype, BitVec.toNat_append, build_utype, imm_upper_field, shiftLeft_natCast,
    or_natCast, Nat.shiftLeft_or_distrib, ← Nat.shiftLeft_add]
  simp

theorem build_jtype_eq :
    build_jtype v rd.toNat op.toNat = ((jtype (pattern v) rd op).toNat : Int) := by
  have h20 : v.shiftRight 20 &&& 0x1 = _ := @imm_field v 20 1 (by decide)
  have h12 : v.shiftRight 12 &&& 0xFF = _ := @imm_field v 12 8 (by decide)
  have h11 : v.shiftRight 11 &&& 0x1 = _ := @imm_field v 11 1 (by decide)
  have h1 : v.shiftRight 1 &&& 0x3FF = _ := @imm_field v 1 10 (by decide)
  simp only [jtype, BitVec.toNat_append, build_jtype, h20, h12, h11, h1, shiftLeft_natCast,
    or_natCast, Nat.shiftLeft_or_distrib, ← Nat.shiftLeft_add]

end words

/-! ### The fields of the built words -/

section fields
variable (u : Word) (f7 op : BitVec 7) (r2 r1 r : BitVec 5) (f3 : BitVec 3)

theorem rtype_fields :
    opcode (rtype f7 r2 r1 f3 r op) = op ∧ Rv32i.funct7 (rtype f7 r2 r1 f3 r op) = f7 ∧
      Rv32i.rs2 (rtype f7 r2 r1 f3 r op) = r2 ∧ Rv32i.rs1 (rtype f7 r2 r1 f3 r op) = r1 ∧
      Rv32i.funct3 (rtype f7 r2 r1 f3 r op) = f3 ∧ Rv32i.rd (rtype f7 r2 r1 f3 r op) = r := by
  refine ⟨?_, ?_, ?_, ?_, ?_, ?_⟩ <;>
    simp (disch := omega) only [opcode, Rv32i.funct7, Rv32i.rs2, Rv32i.rs1, Rv32i.funct3,
      Rv32i.rd, rtype, BitVec.extractLsb'_append_eq_of_add_le,
      BitVec.extractLsb'_append_eq_of_le, Nat.reduceSub, BitVec.extractLsb'_eq_self]

theorem itype_fields :
    opcode (itype u r1 f3 r op) = op ∧
      Rv32i.imm_i (itype u r1 f3 r op) = (u.extractLsb' 0 12).signExtend 32 ∧
      Rv32i.funct7 (itype u r1 f3 r op) = u.extractLsb' 5 7 ∧
      Rv32i.rs1 (itype u r1 f3 r op) = r1 ∧ Rv32i.funct3 (itype u r1 f3 r op) = f3 ∧
      Rv32i.rd (itype u r1 f3 r op) = r := by
  refine ⟨?_, ?_, ?_, ?_, ?_, ?_⟩ <;>
    simp (disch := omega) only [opcode, Rv32i.imm_i, Rv32i.funct7, Rv32i.rs1, Rv32i.funct3,
      Rv32i.rd, itype, BitVec.extractLsb'_append_eq_of_add_le,
      BitVec.extractLsb'_append_eq_of_le, Nat.reduceSub, BitVec.extractLsb'_eq_self,
      BitVec.extractLsb'_extractLsb'_of_le]

theorem stype_fields :
    opcode (stype u r2 r1 f3 op) = op ∧
      Rv32i.imm_s (stype u r2 r1 f3 op) =
        (u.extractLsb' 5 7 ++ u.extractLsb' 0 5).signExtend 32 ∧
      Rv32i.rs2 (stype u r2 r1 f3 op) = r2 ∧ Rv32i.rs1 (stype u r2 r1 f3 op) = r1 ∧
      Rv32i.funct3 (stype u r2 r1 f3 op) = f3 := by
  refine ⟨?_, ?_, ?_, ?_, ?_⟩ <;>
    simp (disch := omega) only [opcode, Rv32i.imm_s, Rv32i.rs2, Rv32i.rs1, Rv32i.funct3, stype,
      BitVec.extractLsb'_append_eq_of_add_le, BitVec.extractLsb'_append_eq_of_le,
      Nat.reduceSub, BitVec.extractLsb'_eq_self]

theorem btype_fields :
    opcode (btype u r2 r1 f3 op) = op ∧
      Rv32i.imm_b (btype u r2 r1 f3 op) =
        (u.extractLsb' 12 1 ++ u.extractLsb' 11 1 ++ u.extractLsb' 5 6 ++ u.extractLsb' 1 4
          ++ 0#1).signExtend 32 ∧
      Rv32i.rs2 (btype u r2 r1 f3 op) = r2 ∧ Rv32i.rs1 (btype u r2 r1 f3 op) = r1 ∧
      Rv32i.funct3 (btype u r2 r1 f3 op) = f3 := by
  refine ⟨?_, ?_, ?_, ?_, ?_⟩ <;>
    simp (disch := omega) only [opcode, Rv32i.imm_b, Rv32i.rs2, Rv32i.rs1, Rv32i.funct3, btype,
      BitVec.extractLsb'_append_eq_of_add_le, BitVec.extractLsb'_append_eq_of_le,
      Nat.reduceSub, BitVec.extractLsb'_eq_self]

theorem utype_fields :
    opcode (utype u r op) = op ∧ Rv32i.imm_u (utype u r op) = u.extractLsb' 12 20 ++ 0#12 ∧
      Rv32i.rd (utype u r op) = r := by
  refine ⟨?_, ?_, ?_⟩ <;>
    simp (disch := omega) only [opcode, Rv32i.imm_u, Rv32i.rd, utype,
      BitVec.extractLsb'_append_eq_of_add_le, BitVec.extractLsb'_append_eq_of_le,
      Nat.reduceSub, BitVec.extractLsb'_eq_self]

theorem jtype_fields :
    opcode (jtype u r op) = op ∧
      Rv32i.imm_j (jtype u r op) =
        (u.extractLsb' 20 1 ++ u.extractLsb' 12 8 ++ u.extractLsb' 11 1 ++ u.extractLsb' 1 10
          ++ 0#1).signExtend 32 ∧
      Rv32i.rd (jtype u r op) = r := by
  refine ⟨?_, ?_, ?_⟩ <;>
    simp (disch := omega) only [opcode, Rv32i.imm_j, Rv32i.rd, jtype,
      BitVec.extractLsb'_append_eq_of_add_le, BitVec.extractLsb'_append_eq_of_le,
      Nat.reduceSub, BitVec.extractLsb'_eq_self]

end fields

/-! ### Immediates -/

section immediates
variable {v : Int}

theorem pattern_slice (v : Int) {k : Nat} (hk : k ≤ 32) :
    (pattern v).extractLsb' 0 k = BitVec.ofInt k v := by
  rw [pattern, ← @ofInt_shiftRight v 0 k 32 (by omega)]
  exact congrArg _ (Int.shiftRight_zero v)

/-- The slices of an immediate lie side by side. -/
theorem slices_append (u : Word) (s m n : Nat) :
    u.extractLsb' (s + n) m ++ u.extractLsb' s n = u.extractLsb' s (m + n) :=
  BitVec.extractLsb'_append_extractLsb'_eq_extractLsb' rfl

/-- Bit 0 of an even number. -/
theorem pattern_even (h : v % 2 = 0) : (0#1 : BitVec 1) = (pattern v).extractLsb' 0 1 := by
  rw [pattern_slice v (by decide)]
  apply BitVec.eq_of_toNat_eq
  rw [BitVec.toNat_ofInt]
  simp [h]

theorem imm_i_pattern (hlo : -2048 ≤ v) (hhi : v ≤ 2047) :
    ((pattern v).extractLsb' 0 12).signExtend 32 = pattern v := by
  rw [pattern_slice v (by decide)]
  exact signExtend_ofInt 32 (by decide) hlo (Int.lt_of_le_of_lt hhi (by decide))

theorem imm_s_pattern (hlo : -2048 ≤ v) (hhi : v ≤ 2047) :
    ((pattern v).extractLsb' 5 7 ++ (pattern v).extractLsb' 0 5).signExtend 32 = pattern v := by
  have h : (pattern v).extractLsb' 5 7 ++ (pattern v).extractLsb' 0 5 = _ :=
    slices_append (pattern v) 0 7 5
  rw [h]
  exact imm_i_pattern hlo hhi

theorem imm_b_pattern (heven : v % 2 = 0) (hlo : -4096 ≤ v) (hhi : v ≤ 4094) :
    ((pattern v).extractLsb' 12 1 ++ (pattern v).extractLsb' 11 1 ++ (pattern v).extractLsb' 5 6
      ++ (pattern v).extractLsb' 1 4 ++ 0#1).signExtend 32 = pattern v := by
  rw [pattern_even heven, slices_append _ 11 1 1, slices_append _ 5 2 6, slices_append _ 1 8 4,
    slices_append _ 0 12 1, pattern_slice v (by decide)]
  exact signExtend_ofInt 32 (by decide) hlo (Int.lt_of_le_of_lt hhi (by decide))

theorem imm_j_pattern (heven : v % 2 = 0) (hlo : -1048576 ≤ v) (hhi : v ≤ 1048574) :
    ((pattern v).extractLsb' 20 1 ++ (pattern v).extractLsb' 12 8 ++ (pattern v).extractLsb' 11 1
      ++ (pattern v).extractLsb' 1 10 ++ 0#1).signExtend 32 = pattern v := by
  rw [pattern_even heven, slices_append _ 12 1 8, slices_append _ 11 9 1, slices_append _ 1 10 10,
    slices_append _ 0 20 1, pattern_slice v (by decide)]
  exact signExtend_ofInt 32 (by decide) hlo (Int.lt_of_le_of_lt hhi (by decide))

theorem pattern_to_32b (v : Int) : pattern (to_32b v) = pattern v := by
  rw [to_32b_eq, pattern, BitVec.ofInt_natCast, BitVec.ofNat_toNat, BitVec.setWidth_eq]

end immediates

/-! ### What the decoder returns

  The expectations of the decoder test, for all field values.
-/

def default_expect : Decoded where
  func3 := 0#3
  func7 := 0#7
  rs1_addr := 0#5
  rs2_addr := 0#5
  rd_addr := 0#5
  imm := 0#32
  alu_src1_is_pc := false
  alu_src2_is_imm := false
  use_mem := false
  is_branch := false
  is_jump := false
  is_jalr := false
  mem_is_write := false
  do_write_back := false
  alu_ctrl := 0#5

/-- `{is_branch, modifier, funct3}` -/
def get_alu_ctrl (is_branch modifier : Bool) (funct3 : BitVec 3) : BitVec 5 :=
  BitVec.ofBool is_branch ++ BitVec.ofBool modifier ++ funct3

/-- The `instr` input with this value is decoded to `exp`. -/
def Decodes (instr : Int) (exp : Decoded) : Prop :=
  ∃ w : Word, (w.toNat : Int) = instr ∧ instruction_decode w = exp

section decoder
variable (v : Int) (f7 : BitVec 7) (r2 r1 r : BitVec 5) (f3 : BitVec 3)

def expect_op : Decoded :=
  { default_expect with
    func3 := f3, func7 := f7, rs1_addr := r1, rs2_addr := r2, rd_addr := r
    do_write_back := true
    alu_ctrl := get_alu_ctrl false (f7 == 0b0100000#7) f3 }

/-- The func7 bits of an I-type word are bits 11:5 of its immediate; only a
    right shift has the modifier. -/
def expect_op_imm : Decoded :=
  let func7 := if f3 = 0b101#3 then (pattern v).extractLsb' 5 7 else 0#7
  { default_expect with
    func3 := f3, func7 := func7, rs1_addr := r1, rd_addr := r, imm := pattern (to_32b v)
    alu_src2_is_imm := true, do_write_back := true
    alu_ctrl := get_alu_ctrl false
      (f3 == 0b101#3 && (pattern v).extractLsb' 5 7 == 0b0100000#7) f3 }

def expect_load : Decoded :=
  { default_expect with
    func3 := f3, rs1_addr := r1, rd_addr := r, imm := pattern (to_32b v)
    alu_src2_is_imm := true, use_mem := true, do_write_back := true, alu_ctrl := ALU_CTRL_ADD }

def expect_jalr : Decoded :=
  { default_expect with
    func3 := f3, rs1_addr := r1, rd_addr := r, imm := pattern (to_32b v)
    alu_src2_is_imm := true, is_jump := true, is_jalr := true, do_write_back := true
    alu_ctrl := ALU_CTRL_NOP }

def expect_store : Decoded :=
  { default_expect with
    func3 := f3, rs1_addr := r1, rs2_addr := r2, imm := pattern (to_32b v)
    alu_src2_is_imm := true, use_mem := true, mem_is_write := true, alu_ctrl := ALU_CTRL_ADD }

def expect_branch : Decoded :=
  { default_expect with
    func3 := f3, rs1_addr := r1, rs2_addr := r2, imm := pattern (to_32b v), is_branch := true
    alu_ctrl := get_alu_ctrl true false f3 }

/-- LUI and AUIPC; the immediate has its low 12 bits cleared. -/
def expect_upper (is_auipc : Bool) : Decoded :=
  { default_expect with
    rd_addr := r, imm := pattern (to_32b v) &&& 0xFFFFF000#32, alu_src1_is_pc := is_auipc
    alu_src2_is_imm := true, do_write_back := true, alu_ctrl := ALU_CTRL_ADD }

def expect_jal : Decoded :=
  { default_expect with
    rd_addr := r, imm := pattern (to_32b v), alu_src2_is_imm := true, is_jump := true
    do_write_back := true, alu_ctrl := ALU_CTRL_NOP }

theorem decodes_rtype :
    Decodes (build_rtype f7.toNat r2.toNat r1.toNat f3.toNat r.toNat OPCODE_OP.toNat)
      (expect_op f7 r2 r1 r f3) := by
  obtain ⟨hop, h7, h2, h1, h3, hr⟩ := rtype_fields f7 OPCODE_OP r2 r1 r f3
  refine ⟨rtype f7 r2 r1 f3 r OPCODE_OP, (build_rtype_eq ..).symm, ?_⟩
  rw [decode_op hop, h7, h2, h1, h3, hr]
  rfl

variable {v} in
theorem decodes_op_imm (hlo : -2048 ≤ v) (hhi : v ≤ 2047) :
    Decodes (build_itype v r1.toNat f3.toNat r.toNat OPCODE_OP_IMM.toNat)
      (expect_op_imm v r1 r f3) := by
  obtain ⟨hop, himm, h7, h1, h3, hr⟩ := itype_fields (pattern v) OPCODE_OP_IMM r1 r f3
  refine ⟨itype (pattern v) r1 f3 r OPCODE_OP_IMM, (build_itype_eq ..).symm, ?_⟩
  rw [decode_op_imm hop, himm, h7, h1, h3, hr, imm_i_pattern hlo hhi, expect_op_imm,
    pattern_to_32b]
  -- the immediate bits are a func7 field for the right shifts only
  by_cases hs : f3 = 0b101#3
  · subst hs
    rfl
  · have hbeq : (f3 == 0b101#3) = false := beq_eq_false_iff_ne.mpr hs
    simp [hs, hbeq, default_expect, get_alu_ctrl]

variable {v} in
theorem decodes_load (hlo : -2048 ≤ v) (hhi : v ≤ 2047) :
    Decodes (build_itype v r1.toNat f3.toNat r.toNat OPCODE_LOAD.toNat)
      (expect_load v r1 r f3) := by
  obtain ⟨hop, himm, -, h1, h3, hr⟩ := itype_fields (pattern v) OPCODE_LOAD r1 r f3
  refine ⟨itype (pattern v) r1 f3 r OPCODE_LOAD, (build_itype_eq ..).symm, ?_⟩
  rw [decode_load hop, himm, h1, h3, hr, imm_i_pattern hlo hhi, expect_load, pattern_to_32b]
  rfl

variable {v} in
theorem decodes_jalr (hlo : -2048 ≤ v) (hhi : v ≤ 2047) :
    Decodes (build_itype v r1.toNat f3.toNat r.toNat OPCODE_JALR.toNat)
      (expect_jalr v r1 r f3) := by
  obtain ⟨hop, himm, -, h1, h3, hr⟩ := itype_fields (pattern v) OPCODE_JALR r1 r f3
  refine ⟨itype (pattern v) r1 f3 r OPCODE_JALR, (build_itype_eq ..).symm, ?_⟩
  rw [decode_jalr hop, himm, h1, h3, hr, imm_i_pattern hlo hhi, expect_jalr, pattern_to_32b]
  rfl

variable {v} in
theorem decodes_stype (hlo : -2048 ≤ v) (hhi : v ≤ 2047) :
    Decodes (build_stype v r2.toNat r1.toNat f3.toNat OPCODE_STORE.toNat)
      (expect_store v r2 r1 f3) := by
  obtain ⟨hop, himm, h2, h1, h3⟩ := stype_fields (pattern v) OPCODE_STORE r2 r1 f3
  refine ⟨stype (pattern v) r2 r1 f3 OPCODE_STORE, (build_stype_eq ..).symm, ?_⟩
  rw [decode_store hop, himm, h2, h1, h3, imm_s_pattern hlo hhi, expect_store, pattern_to_32b]
  rfl

variable {v} in
theorem decodes_btype (heven : v % 2 = 0) (hlo : -4096 ≤ v) (hhi : v ≤ 4094) :
    Decodes (build_btype v r2.toNat r1.toNat f3.toNat OPCODE_BRANCH.toNat)
      (expect_branch v r2 r1 f3) := by
  obtain ⟨hop, himm, h2, h1, h3⟩ := btype_fields (pattern v) OPCODE_BRANCH r2 r1 f3
  refine ⟨btype (pattern v) r2 r1 f3 OPCODE_BRANCH, (build_btype_eq ..).symm, ?_⟩
  rw [decode_branch hop, himm, h2, h1, h3, imm_b_pattern heven hlo hhi, expect_branch,
    pattern_to_32b]
  rfl

theorem decodes_lui :
    Decodes (build_utype v r.toNat OPCODE_LUI.toNat) (expect_upper v r false) := by
  obtain ⟨hop, himm, hr⟩ := utype_fields (pattern v) OPCODE_LUI r
  refine ⟨utype (pattern v) r OPCODE_LUI, (build_utype_eq ..).symm, ?_⟩
  rw [decode_lui hop, himm, hr, ← and_upper_mask, expect_upper, pattern_to_32b]
  rfl

theorem decodes_auipc :
    Decodes (build_utype v r.toNat OPCODE_AUIPC.toNat) (expect_upper v r true) := by
  obtain ⟨hop, himm, hr⟩ := utype_fields (pattern v) OPCODE_AUIPC r
  refine ⟨utype (pattern v) r OPCODE_AUIPC, (build_utype_eq ..).symm, ?_⟩
  rw [decode_auipc hop, himm, hr, ← and_upper_mask, expect_upper, pattern_to_32b]
  rfl

variable {v} in
theorem decodes_jtype (heven : v % 2 = 0) (hlo : -1048576 ≤ v) (hhi : v ≤ 1048574) :
    Decodes (build_jtype v r.toNat OPCODE_JAL.toNat) (expect_jal v r) := by
  obtain ⟨hop, himm, hr⟩ := jtype_fields (pattern v) OPCODE_JAL r
  refine ⟨jtype (pattern v) r OPCODE_JAL, (build_jtype_eq ..).symm, ?_⟩
  rw [decode_jal hop, himm, hr, imm_j_pattern heven hlo hhi, expect_jal, pattern_to_32b]
  rfl

/-- The decoder undoes every builder for every supported opcode: register
    fields, immediate, flags and ALU control, for all fields and all
    immediates of the format. -/
theorem decode_build :
    (∀ f7 r2 r1 r f3,
      Decodes (build_rtype f7.toNat r2.toNat r1.toNat f3.toNat r.toNat OPCODE_OP.toNat)
        (expect_op f7 r2 r1 r f3)) ∧
    (∀ v r1 f3 r, -2048 ≤ v → v ≤ 2047 →
      Decodes (build_itype v r1.toNat f3.toNat r.toNat OPCODE_OP_IMM.toNat)
        (expect_op_imm v r1 r f3) ∧
      Decodes (build_itype v r1.toNat f3.toNat r.toNat OPCODE_LOAD.toNat)
        (expect_load v r1 r f3) ∧
      Decodes (build_itype v r1.toNat f3.toNat r.toNat OPCODE_JALR.toNat)
        (expect_jalr v r1 r f3)) ∧
    (∀ v r2 r1 f3, -2048 ≤ v → v ≤ 2047 →
      Decodes (build_stype v r2.toNat r1.toNat f3.toNat OPCODE_STORE.toNat)
        (expect_store v r2 r1 f3)) ∧
    (∀ v r2 r1 f3, v % 2 = 0 → -4096 ≤ v → v ≤ 4094 →
      Decodes (build_btype v r2.toNat r1.toNat f3.toNat OPCODE_BRANCH.toNat)
        (expect_branch v r2 r1 f3)) ∧
    (∀ v r, Decodes (build_utype v r.toNat OPCODE_LUI.toNat) (expect_upper v r false) ∧
      Decodes (build_utype v r.toNat OPCODE_AUIPC.toNat) (expect_upper v r true)) ∧
    (∀ v r, v % 2 = 0 → -1048576 ≤ v → v ≤ 1048574 →
      Decodes (build_jtype v r.toNat OPCODE_JAL.toNat) (expect_jal v r)) := by
  refine ⟨decodes_rtype, ?_, ?_, ?_, ?_, ?_⟩
  · intro v r1 f3 r hlo hhi
    exact ⟨decodes_op_imm r1 r f3 hlo hhi, decodes_load r1 r f3 hlo hhi,
      decodes_jalr r1 r f3 hlo hhi⟩
  · intro v r2 r1 f3 hlo hhi
    exact decodes_stype r2 r1 f3 hlo hhi
  · intro v r2 r1 f3 heven hlo hhi
    exact decodes_btype r2 r1 f3 heven hlo hhi
  · intro v r
    exact ⟨decodes_lui v r, decodes_auipc v r⟩
  · intro v r heven hlo hhi
    exact decodes_jtype r heven hlo hhi

/-- `beq x10, x11, -8` -/
theorem decode_build_beq :
    ((-8 : Int) % 2 = 0 ∧ (-4096 : Int) ≤ -8 ∧ (-8 : Int) ≤ 4094) ∧
      Decodes (build_btype (-8) 11 10 0 0b1100011) (expect_branch (-8) 11#5 10#5 0b000#3) :=
  ⟨by decide, decode_build.2.2.2.1 (-8) 11#5 10#5 0b000#3 (by decide) (by decide) (by decide)⟩

end decoder

end RiscvWorker
