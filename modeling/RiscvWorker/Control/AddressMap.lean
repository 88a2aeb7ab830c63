import RiscvWorker.Hdl.SocControl

/-! # The address map of the control module

  The documented map: which addresses can be read and which can be written,
  as sets of addresses built from register numbers and fault modes. The
  lemmas relate the module's sub-decoders, which test slices of the latched
  address, to this map.
-/

namespace RiscvWorker

/-! ### The map -/

/-- The window of an address. The upper half of the address is not decoded. -/
def selector (addr : Word) : BitVec 4 := addr.extractLsb' 12 4

/-- The offset of an address in its window. -/
def window_offset (addr : Word) : BitVec 12 := addr.extractLsb' 0 12

/-- Where register `r` is in the register-file window. -/
def register_offset (r : BitVec 5) : BitVec 12 := 0#5 ++ r ++ 0#2

/-- `00mm 0rrrrr00` -/
def fault_offset (mode : BitVec 2) (r : BitVec 5) : BitVec 12 := 0#2 ++ mode ++ 0#1 ++ r ++ 0#2

/-- The control registers that can be written. -/
def is_control_write (offset : BitVec 12) : Prop :=
  offset = CTRL_REG_START ∨ offset = CTRL_REG_STOP ∨ offset = CTRL_REG_STEP ∨
    offset = CTRL_REG_PC

/-- The writes the map allows: full strobe, to START, STOP, STEP or PC, to a
    non-zero register, or to the fault address of one. -/
def okay_write (addr : Word) (strb : BitVec 4) : Prop :=
  strb = 0b1111#4 ∧
  ((selector addr = SUB_SEL_CTRL ∧ is_control_write (window_offset addr)) ∨
   (selector addr = SUB_SEL_REGFILE ∧ ∃ r, r ≠ 0#5 ∧ window_offset addr = register_offset r) ∨
   (selector addr = SUB_SEL_FAULT ∧
      ∃ mode r, r ≠ 0#5 ∧ window_offset addr = fault_offset mode r))

/-- The control registers that can be read. -/
def is_control_read (offset : BitVec 12) : Prop :=
  offset = CTRL_REG_STATUS ∨ offset = CTRL_REG_START ∨ offset = CTRL_REG_STOP ∨
    offset = CTRL_REG_STEP ∨ offset = CTRL_REG_PC ∨ offset = CTRL_REG_DBG_VECTOR

/-- The reads the map allows. -/
def okay_read (addr : Word) : Prop :=
  (selector addr = SUB_SEL_CTRL ∧ is_control_read (window_offset addr)) ∨
  (selector addr = SUB_SEL_REGFILE ∧ ∃ r, window_offset addr = register_offset r)

/-! ### Slices of an offset -/

theorem register_offset_field (r : BitVec 5) : (register_offset r).extractLsb' 2 5 = r := by
  revert r
  decide

theorem register_offset_valid (r : BitVec 5) :
    (register_offset r).extractLsb' 0 2 = 0b00#2 ∧ (register_offset r).extractLsb' 7 5 = 0#5 := by
  revert r
  decide

theorem eq_register_offset {a : BitVec 12} (h0 : a.extractLsb' 0 2 = 0b00#2)
    (h7 : a.extractLsb' 7 5 = 0#5) : a = register_offset (a.extractLsb' 2 5) := by
  -- an offset is its three fields
  have hsplit : a.extractLsb' 7 5 ++ a.extractLsb' 2 5 ++ a.extractLsb' 0 2 = a := by
    ext j hj
    simp only [BitVec.getElem_append, BitVec.getElem_extractLsb']
    grind
  rw [h7, h0] at hsplit
  exact hsplit.symm

theorem fault_offset_field (mode : BitVec 2) (r : BitVec 5) :
    (fault_offset mode r).extractLsb' 2 5 = r ∧ (fault_offset mode r).extractLsb' 8 2 = mode := by
  revert mode r
  decide

theorem fault_offset_valid (mode : BitVec 2) (r : BitVec 5) :
    (fault_offset mode r).extractLsb' 0 2 = 0b00#2 ∧
    (fault_offset mode r).extractLsb' 10 2 = 0b00#2 ∧
    (fault_offset mode r).extractLsb' 7 1 = 0b0#1 := by
  revert mode r
  decide

theorem eq_fault_offset {a : BitVec 12} (h0 : a.extractLsb' 0 2 = 0b00#2)
    (h10 : a.extractLsb' 10 2 = 0b00#2) (h7 : a.extractLsb' 7 1 = 0b0#1) :
    a = fault_offset (a.extractLsb' 8 2) (a.extractLsb' 2 5) := by
  have hsplit : a.extractLsb' 10 2 ++ a.extractLsb' 8 2 ++ a.extractLsb' 7 1
      ++ a.extractLsb' 2 5 ++ a.extractLsb' 0 2 = a := by
    ext j hj
    simp only [BitVec.getElem_append, BitVec.getElem_extractLsb']
    grind
  rw [h10, h7, h0] at hsplit
  exact hsplit.symm

theorem is_control_write_aligned {offset : BitVec 12} (h : is_control_write offset) :
    offset.extractLsb' 0 2 = 0b00#2 := by
  rcases h with rfl | rfl | rfl | rfl <;> decide

/-- The register of an allowed register write is not x0. -/
theorem okay_write_register {addr : Word} {strb : BitVec 4} {r : BitVec 5}
    (h : okay_write addr strb) (hsel : selector addr = SUB_SEL_REGFILE)
    (hoff : window_offset addr = register_offset r) : r ≠ 0#5 := by
  rcases h.2 with ⟨hc, -⟩ | ⟨-, r', hr', hoff'⟩ | ⟨hc, -⟩
  · rw [hsel] at hc
    simp at hc
  · rw [hoff] at hoff'
    have hrr := congrArg (BitVec.extractLsb' 2 5) hoff'
    rw [register_offset_field, register_offset_field] at hrr
    rwa [hrr]
  · rw [hsel] at hc
    simp at hc

/-- The register of an allowed fault is not x0. -/
theorem okay_write_fault {addr : Word} {strb : BitVec 4} {mode : BitVec 2} {r : BitVec 5}
    (h : okay_write addr strb) (hsel : selector addr = SUB_SEL_FAULT)
    (hoff : window_offset addr = fault_offset mode r) : r ≠ 0#5 := by
  rcases h.2 with ⟨hc, -⟩ | ⟨hc, -⟩ | ⟨-, mode', r', hr', hoff'⟩
  · rw [hsel] at hc
    simp at hc
  · rw [hsel] at hc
    simp at hc
  · rw [hoff] at hoff'
    have hrr := congrArg (BitVec.extractLsb' 2 5) hoff'
    rw [(fault_offset_field mode r).1, (fault_offset_field mode' r').1] at hrr
    rwa [hrr]

/-! ### The sub-decoders -/

namespace SocControl

variable {c : SocControl} {addr : Word} (ha : c.latched_address = addr.extractLsb' 0 16)
include ha

theorem sub_selector_eq : c.sub_selector = selector addr := by
  unfold sub_selector
  -- a slice of the lower half is the same slice of the address
  rw [ha, selector]
  ext j hj
  simp only [BitVec.getElem_extractLsb', BitVec.getLsbD_extractLsb']
  grind

theorem sub_addr_eq : c.sub_addr = window_offset addr := by
  unfold sub_addr
  rw [ha, window_offset]
  ext j hj
  simp only [BitVec.getElem_extractLsb', BitVec.getLsbD_extractLsb']
  grind

theorem regfile_read_valid_iff :
    c.regfile_read_valid = true ↔
      selector addr = SUB_SEL_REGFILE ∧ ∃ r, window_offset addr = register_offset r := by
  have hsel := sub_selector_eq ha
  have hsub := sub_addr_eq ha
  simp only [regfile_read_valid, regfile_selected, sub_addr_aligned, regfile_addr_in_bounds,
    hsel, hsub, Bool.and_eq_true, beq_iff_eq]
  constructor
  · intro hwrite
    obtain ⟨⟨h, h0⟩, h7⟩ := hwrite
    exact ⟨h, _, eq_register_offset h0 h7⟩
  · intro hwrite
    obtain ⟨h, r, hr⟩ := hwrite
    obtain ⟨h0, h7⟩ := register_offset_valid r
    rw [hr]
    exact ⟨⟨h, h0⟩, h7⟩

theorem regfile_write_valid_iff :
    c.regfile_write_valid = true ↔
      c.latched_write_strobe = 0b1111#4 ∧ selector addr = SUB_SEL_REGFILE ∧
        ∃ r, r ≠ 0#5 ∧ window_offset addr = register_offset r := by
  have hread := regfile_read_valid_iff ha
  have hsub := sub_addr_eq ha
  simp only [regfile_write_valid, Bool.and_eq_true, hread, write_strobe_full,
    regfile_reg_not_zero, regfile_sub_addr, hsub, beq_iff_eq, bne_iff_ne]
  constructor
  · intro hwrite
    obtain ⟨⟨⟨h, r, hr⟩, hs⟩, hne⟩ := hwrite
    rw [hr, register_offset_field] at hne
    exact ⟨hs, h, r, hne, hr⟩
  · intro hwrite
    obtain ⟨hs, h, r, hne, hr⟩ := hwrite
    rw [hr, register_offset_field]
    exact ⟨⟨⟨h, r, rfl⟩, hs⟩, hne⟩

theorem fault_write_valid_iff :
    c.fault_write_valid = true ↔
      c.latched_write_strobe = 0b1111#4 ∧ selector addr = SUB_SEL_FAULT ∧
        ∃ mode r, r ≠ 0#5 ∧ window_offset addr = fault_offset mode r := by
  have hsel := sub_selector_eq ha
  have hsub := sub_addr_eq ha
  simp only [fault_write_valid, fault_selected, write_strobe_full, sub_addr_aligned,
    fault_addr_valid, fault_reg_not_zero, fault_reg_addr, hsel, hsub, Bool.and_eq_true,
    beq_iff_eq, bne_iff_ne]
  constructor
  -- the checks fix all bits but those of the mode and of the register
  · intro hwrite
    obtain ⟨⟨⟨⟨h, hs⟩, h0⟩, h10, h7⟩, hne⟩ := hwrite
    exact ⟨hs, h, _, _, hne, eq_fault_offset h0 h10 h7⟩
  · intro hwrite
    obtain ⟨hs, h, mode, r, hne, hr⟩ := hwrite
    obtain ⟨h0, h10, h7⟩ := fault_offset_valid mode r
    obtain ⟨hf, -⟩ := fault_offset_field mode r
    rw [hr, hf]
    exact ⟨⟨⟨⟨h, hs⟩, h0⟩, h10, h7⟩, hne⟩

end SocControl

end RiscvWorker
