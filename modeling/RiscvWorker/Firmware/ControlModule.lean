import RiscvWorker.Control.AddressMap

/-! # control_module.c

  The firmware's driver of the control module: the address macros of
  `control_definitions.h`, the driver functions as the bus access each of
  them makes, and `apply_fault_mode` of `main.c`. The base address of the
  control module comes from the block design, which puts it at 0x60000000
  with a range of 64 KiB; here it is a parameter whose lower half is zero.
-/

namespace RiscvWorker

namespace Firmware

/-! ### control_definitions.h -/

def SUB_ADDR_WIDTH : Nat := 12
def FAULT_MODE_LSB : Nat := 8
def FAULT_REGIDX_MASK : Word := 0x1F#32

def CTRL_REG_START : Word := 0x04#32
def CTRL_REG_STOP : Word := 0x08#32
def CTRL_REG_STEP : Word := 0x0C#32
def CTRL_REG_PC : Word := 0x10#32

def CONTROL_REG_ADDR (reg : Word) : Word := (0x1#32 <<< SUB_ADDR_WIDTH) ||| reg

def REGFILE_ADDR (reg_idx : Word) : Word :=
  (0x2#32 <<< SUB_ADDR_WIDTH) ||| ((reg_idx &&& FAULT_REGIDX_MASK) <<< 2)

/-- The mask on the mode is `(1u << FAULT_MODE_WIDTH) - 1u`. -/
def FAULT_REQUEST (mode reg_idx : Word) : Word :=
  (0x3#32 <<< SUB_ADDR_WIDTH) ||| ((mode &&& 3#32) <<< FAULT_MODE_LSB)
    ||| ((reg_idx &&& FAULT_REGIDX_MASK) <<< 2)

/-- `cm_fault_mode_t` -/
inductive FaultMode where
  | CM_FAULT_MODE_OVERWRITE
  | CM_FAULT_MODE_XOR_MASK
  | CM_FAULT_MODE_OR_MASK
  | CM_FAULT_MODE_ANDN_MASK
  deriving DecidableEq, Repr

def FaultMode.value : FaultMode → Word
  | .CM_FAULT_MODE_OVERWRITE => 0#32
  | .CM_FAULT_MODE_XOR_MASK => 1#32
  | .CM_FAULT_MODE_OR_MASK => 2#32
  | .CM_FAULT_MODE_ANDN_MASK => 3#32

/-- `apply_fault_mode` -/
def apply_fault_mode (original mode mask : Word) : Word :=
  if mode = FaultMode.CM_FAULT_MODE_OVERWRITE.value then mask
  else if mode = FaultMode.CM_FAULT_MODE_XOR_MASK.value then original ^^^ mask
  else if mode = FaultMode.CM_FAULT_MODE_OR_MASK.value then original ||| mask
  else original &&& ~~~mask

/-! ### The driver functions -/

/-- A call of the driver; register numbers are `uint8_t`. -/
inductive Call where
  | cm_regfile_write (register_num : BitVec 8) (value : Word)
  | cm_regfile_read (register_num : BitVec 8)
  | cm_regfile_fault_inject (register_num : BitVec 8) (mask : Word) (mode : FaultMode)
  | cm_pc_set (value : Word)
  | cm_pc_read
  deriving DecidableEq, Repr

/-- The bus access of a call: `Xil_Out32` with its data, or `Xil_In32`. -/
inductive Access where
  | out32 (addr data : Word)
  | in32 (addr : Word)
  deriving DecidableEq, Repr

/-- What each driver function does on the bus. -/
def Call.access (baseaddr : Word) : Call → Access
  | .cm_regfile_write r v => .out32 (baseaddr + REGFILE_ADDR (r.setWidth 32)) v
  | .cm_regfile_read r => .in32 (baseaddr + REGFILE_ADDR (r.setWidth 32))
  | .cm_regfile_fault_inject r mask mode =>
    .out32 (baseaddr + FAULT_REQUEST mode.value (r.setWidth 32)) mask
  | .cm_pc_set v => .out32 (baseaddr + CONTROL_REG_ADDR CTRL_REG_PC) v
  | .cm_pc_read => .in32 (baseaddr + CONTROL_REG_ADDR CTRL_REG_PC)

/-- The calls about the registers x1 to x31 and the PC. -/
def Call.Valid : Call → Prop
  | .cm_regfile_write r _ | .cm_regfile_read r | .cm_regfile_fault_inject r _ _ =>
    1 ≤ r.toNat ∧ r.toNat ≤ 31
  | .cm_pc_set _ | .cm_pc_read => True

/-! ### Where the macros point -/

section addresses
variable {baseaddr : Word} (hbase : baseaddr.extractLsb' 0 16 = 0#16)
include hbase

/-- The control module does not see the base address. -/
theorem low_half (a : Word) : (baseaddr + a).extractLsb' 0 16 = a.extractLsb' 0 16 := by
  -- no carry comes out of the lower half of the base, which is zero
  rw [BitVec.extractLsb'_add (by decide), hbase, BitVec.zero_add]

theorem selector_base (a : Word) : selector (baseaddr + a) = selector a := by
  have hsel : ∀ b : Word, selector b = (b.extractLsb' 0 16).extractLsb' 12 4 := by
    intro b
    unfold selector
    ext j hj
    simp only [BitVec.getElem_extractLsb', BitVec.getLsbD_extractLsb']
    grind
  rw [hsel, hsel, low_half hbase]

theorem window_offset_base (a : Word) : window_offset (baseaddr + a) = window_offset a := by
  have hoff : ∀ b : Word, window_offset b = (b.extractLsb' 0 16).extractLsb' 0 12 := by
    intro b
    unfold window_offset
    ext j hj
    simp only [BitVec.getElem_extractLsb', BitVec.getLsbD_extractLsb']
    grind
  rw [hoff, hoff, low_half hbase]

theorem REGFILE_ADDR_window (r : BitVec 8) :
    selector (baseaddr + REGFILE_ADDR (r.setWidth 32)) = SUB_SEL_REGFILE ∧
    window_offset (baseaddr + REGFILE_ADDR (r.setWidth 32)) =
      register_offset (r.setWidth 5) := by
  -- without the base there are only the register numbers to go through
  rw [selector_base hbase, window_offset_base hbase]
  revert r
  decide +kernel

theorem FAULT_REQUEST_window (mode : FaultMode) (r : BitVec 8) :
    selector (baseaddr + FAULT_REQUEST mode.value (r.setWidth 32)) = SUB_SEL_FAULT ∧
    window_offset (baseaddr + FAULT_REQUEST mode.value (r.setWidth 32)) =
      fault_offset (mode.value.setWidth 2) (r.setWidth 5) := by
  rw [selector_base hbase, window_offset_base hbase]
  cases mode <;> (revert r; decide +kernel)

theorem CONTROL_REG_ADDR_pc :
    selector (baseaddr + CONTROL_REG_ADDR CTRL_REG_PC) = SUB_SEL_CTRL ∧
    window_offset (baseaddr + CONTROL_REG_ADDR CTRL_REG_PC) = RiscvWorker.CTRL_REG_PC := by
  rw [selector_base hbase, window_offset_base hbase]
  decide

end addresses

theorem register_ne_zero {r : BitVec 8} (h1 : 1 ≤ r.toNat) (h31 : r.toNat ≤ 31) :
    r.setWidth 5 ≠ 0#5 := by
  intro hc
  have hn := congrArg BitVec.toNat hc
  rw [BitVec.toNat_setWidth, BitVec.toNat_ofNat] at hn
  omega

end Firmware

end RiscvWorker
