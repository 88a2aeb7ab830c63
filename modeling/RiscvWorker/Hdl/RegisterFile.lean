import RiscvWorker.Hdl.Params

/-! # register_file.v and fault_injector.v -/

namespace RiscvWorker

/-- `fault_injector` -/
def fault_injector (current_value fault_mask : Word) (fault_mode : BitVec 2) : Word :=
  if fault_mode = FAULT_MODE_OVERWRITE then fault_mask
  else if fault_mode = FAULT_MODE_XOR_MASK then current_value ^^^ fault_mask
  else if fault_mode = FAULT_MODE_OR_MASK then current_value ||| fault_mask
  -- FAULT_MODE_ANDN_MASK, the last of the four
  else current_value &&& ~~~fault_mask

/-- The registers of `register_file`. Entry 0 of `registers` does not exist in
    the source; no definition below reads or writes it. -/
structure RegisterFile where
  registers : BitVec 5 → Word
  extra_read_data : Word

namespace RegisterFile

/-- The write ports and the address of the registered read port. -/
structure Input where
  write_enable : Bool
  write_addr : BitVec 5
  write_data : Word
  extra_addr : BitVec 5
  extra_write_enable : Bool
  extra_write_data : Word
  fault_write_enable : Bool
  fault_addr : BitVec 5
  fault_mode : BitVec 2
  fault_mask : Word
  deriving DecidableEq, Repr

def reset : RegisterFile where
  registers := fun _ => 0#32
  extra_read_data := 0#32

/-- The asynchronous read port: x0 is hard-wired to zero. -/
def read (rf : RegisterFile) (addr : BitVec 5) : Word :=
  if addr = 0#5 then 0#32 else rf.registers addr

def fault_injected_data (rf : RegisterFile) (i : Input) : Word :=
  fault_injector (rf.read i.fault_addr) i.fault_mask i.fault_mode

/-- `registers[addr] <= value` -/
def update (registers : BitVec 5 → Word) (addr : BitVec 5) (value : Word) : BitVec 5 → Word :=
  fun a => if a = addr then value else registers a

/-- One clock edge: three writers with else-if priority, and the registered
    read of the `extra` port. -/
def next (rf : RegisterFile) (i : Input) : RegisterFile where
  registers :=
    -- the core's write back comes first and drops the other two
    if i.write_enable && i.write_addr != 0#5 then
      update rf.registers i.write_addr i.write_data
    else if i.extra_write_enable && i.extra_addr != 0#5 then
      update rf.registers i.extra_addr i.extra_write_data
    else if i.fault_write_enable && i.fault_addr != 0#5 then
      update rf.registers i.fault_addr (rf.fault_injected_data i)
    else rf.registers
  extra_read_data := rf.read i.extra_addr

end RegisterFile

end RiscvWorker
