import RiscvWorker.Hdl.Params

/-! # soc_control.v

  The control module: an AXI4-Lite slave that turns reads and writes into
  accesses to the control registers, the register file and the fault
  injector.
-/

namespace RiscvWorker

open AxiLite (Master Slave)

/-- The states of the AXI state machine. -/
inductive SocState where
  | idle
  | read_issue
  | read_wait_done
  | read_resp
  | write_recv_addr
  | write_recv_data
  | write_issue
  | write_wait_done
  | write_resp
  deriving DecidableEq, Repr

/-- The registers of `soc_control`. -/
structure SocControl where
  state : SocState
  op_successful : Bool
  read_data : Word
  latched_address : BitVec 16
  latched_write_data : Word
  latched_write_strobe : BitVec 4
  pc_stall : Bool
  control_read_data : Word
  control_address_valid : Bool
  deriving DecidableEq, Repr

namespace SocControl

/-- The inputs of one cycle: the master on the AXI port, and what the core
    returns. -/
structure Input where
  s_axi : Master
  pc_read_data : Word
  regfile_read_data : Word
  core_debug_vector : Word
  deriving DecidableEq, Repr

def reset : SocControl where
  state := .idle
  op_successful := false
  read_data := 0#32
  latched_address := 0#16
  latched_write_data := 0#32
  latched_write_strobe := 0#4
  pc_stall := true
  control_read_data := 0#32
  control_address_valid := false

variable (c : SocControl)

/-! ### Address decoding -/

def sub_selector : BitVec 4 := c.latched_address.extractLsb' 12 4
def sub_addr : BitVec 12 := c.latched_address.extractLsb' 0 12

def sub_addr_aligned : Bool := c.sub_addr.extractLsb' 0 2 == 0b00#2
def write_strobe_full : Bool := c.latched_write_strobe == 0b1111#4

/-! ### Register file window -/

def regfile_selected : Bool := c.sub_selector == SUB_SEL_REGFILE
def regfile_addr_in_bounds : Bool := c.sub_addr.extractLsb' 7 5 == 0#5
def regfile_sub_addr : BitVec 5 := c.sub_addr.extractLsb' 2 5
def regfile_reg_not_zero : Bool := c.regfile_sub_addr != 0#5
def regfile_read_valid : Bool :=
  c.regfile_selected && c.sub_addr_aligned && c.regfile_addr_in_bounds
def regfile_write_valid : Bool :=
  c.regfile_read_valid && c.write_strobe_full && c.regfile_reg_not_zero

def regfile_write_enable : Bool :=
  c.state == .write_issue && (c.regfile_selected && c.regfile_write_valid)

def regfile_addr : BitVec 5 :=
  match c.state with
  -- the read port of the register file is registered: its data comes one cycle later
  | .read_issue => if c.regfile_read_valid then c.regfile_sub_addr else 0#5
  | .write_issue =>
    if c.regfile_selected && c.regfile_write_valid then c.regfile_sub_addr else 0#5
  | _ => 0#5

def regfile_write_data : Word :=
  if c.regfile_write_enable then c.latched_write_data else 0#32

def regfile_op_successful : Bool :=
  if c.regfile_selected then
    match c.state with
    | .read_wait_done => c.regfile_read_valid
    | .write_wait_done => c.regfile_write_valid
    | _ => false
  else false

/-! ### Fault injection window (format: 00mm 0rrrrr00) -/

def fault_selected : Bool := c.sub_selector == SUB_SEL_FAULT
def fault_mode : BitVec 2 := c.sub_addr.extractLsb' 8 2
def fault_reg_addr : BitVec 5 := c.sub_addr.extractLsb' 2 5
def fault_addr_valid : Bool :=
  c.sub_addr.extractLsb' 10 2 == 0b00#2 && c.sub_addr.extractLsb' 7 1 == 0b0#1
def fault_reg_not_zero : Bool := c.fault_reg_addr != 0#5
def fault_write_valid : Bool :=
  c.fault_selected && c.write_strobe_full && c.sub_addr_aligned && c.fault_addr_valid
    && c.fault_reg_not_zero

def regfile_fault_enable : Bool :=
  c.state == .write_issue && (c.fault_selected && c.fault_write_valid)

def regfile_fault_addr : BitVec 5 := if c.regfile_fault_enable then c.fault_reg_addr else 0#5
def regfile_fault_mode : BitVec 2 := if c.regfile_fault_enable then c.fault_mode else 0#2
def regfile_fault_mask : Word := if c.regfile_fault_enable then c.latched_write_data else 0#32

def fault_op_successful : Bool :=
  if c.fault_selected then
    match c.state with
    | .write_wait_done => c.fault_write_valid
    | _ => false
  else false

/-! ### Control registers -/

def control_selected : Bool := c.sub_selector == SUB_SEL_CTRL
def control_read_valid : Bool :=
  c.control_selected && c.control_address_valid && c.sub_addr_aligned
def control_write_valid : Bool := c.control_read_valid && c.write_strobe_full

def pc_write_enable : Bool :=
  -- unlike in the other windows, the strobe is not looked at
  c.state == .write_issue && (c.control_selected && c.sub_addr == CTRL_REG_PC)

def pc_write_data : Word := if c.pc_write_enable then c.latched_write_data else 0#32

def control_op_successful : Bool :=
  match c.state with
  | .read_wait_done => c.control_read_valid
  | .write_wait_done => c.control_write_valid
  | _ => false

/-! ### AXI outputs -/

/-- Every operation takes one cycle, invalid ones included. -/
def op_done : Bool := c.state == .read_wait_done || c.state == .write_wait_done

def s_axi : Slave where
  arready := c.state == .idle
  rvalid := c.state == .read_resp
  rdata := if c.state = .read_resp then (if c.op_successful then c.read_data else 0#32) else 0#32
  rresp :=
    if c.state = .read_resp then (if c.op_successful then AXI_RESP_OKAY else AXI_RESP_SLVERR)
    else 0#2
  awready := c.state == .write_recv_addr
  wready := c.state == .write_recv_data
  bvalid := c.state == .write_resp
  bresp :=
    if c.state = .write_resp then (if c.op_successful then AXI_RESP_OKAY else AXI_RESP_SLVERR)
    else 0#2

variable (i : Input)

/-! ### Clock edge -/

def next_state : SocState :=
  match c.state with
  | .idle =>
    -- a read goes first if both are requested
    if i.s_axi.arvalid then .read_issue
    else if i.s_axi.awvalid then .write_recv_addr
    else .idle
  | .read_issue => .read_wait_done
  | .read_wait_done => if c.op_done then .read_resp else .read_wait_done
  | .read_resp => if i.s_axi.rready then .idle else .read_resp
  | .write_recv_addr => if i.s_axi.awvalid then .write_recv_data else .write_recv_addr
  | .write_recv_data => if i.s_axi.wvalid then .write_issue else .write_recv_data
  | .write_issue => .write_wait_done
  | .write_wait_done => if c.op_done then .write_resp else .write_wait_done
  | .write_resp => if i.s_axi.bready then .idle else .write_resp

def latched_address' : BitVec 16 :=
  match c.state with
  -- the upper half of the address is dropped
  | .idle => if i.s_axi.arvalid then i.s_axi.araddr.extractLsb' 0 16 else c.latched_address
  | .write_recv_addr =>
    if i.s_axi.awvalid then i.s_axi.awaddr.extractLsb' 0 16 else c.latched_address
  | _ => c.latched_address

def latched_write_data' : Word :=
  match c.state with
  | .write_recv_data => if i.s_axi.wvalid then i.s_axi.wdata else c.latched_write_data
  | _ => c.latched_write_data

def latched_write_strobe' : BitVec 4 :=
  match c.state with
  | .write_recv_data => if i.s_axi.wvalid then i.s_axi.wstrb else c.latched_write_strobe
  | _ => c.latched_write_strobe

def op_successful' : Bool :=
  if c.op_done then
    if c.sub_selector = SUB_SEL_CTRL then c.control_op_successful
    else if c.sub_selector = SUB_SEL_REGFILE then c.regfile_op_successful
    else if c.sub_selector = SUB_SEL_FAULT then c.fault_op_successful
    else false
  else c.op_successful

def read_data' : Word :=
  if c.op_done then
    if c.sub_selector = SUB_SEL_CTRL then c.control_read_data
    else if c.sub_selector = SUB_SEL_REGFILE then i.regfile_read_data
    else if c.sub_selector = SUB_SEL_FAULT then 0#32
    else 0#32
  else c.read_data

/-- The case items of the read decode. The source joins START, STOP and STEP
    with a bitwise or, which makes one item of the three. -/
def control_read_data' : Word :=
  match c.state with
  | .read_issue =>
    if c.control_selected then
      if c.sub_addr = CTRL_REG_STATUS then 0#31 ++ BitVec.ofBool c.pc_stall
      -- no real data to be read here
      else if c.sub_addr = (CTRL_REG_START ||| CTRL_REG_STOP ||| CTRL_REG_STEP) then 0#32
      else if c.sub_addr = CTRL_REG_PC then i.pc_read_data
      else if c.sub_addr = CTRL_REG_DBG_VECTOR then i.core_debug_vector
      else 0#32
    else c.control_read_data
  | _ => c.control_read_data

def control_address_valid' : Bool :=
  match c.state with
  -- cleared between transactions
  | .idle => false
  | .read_issue =>
    if c.control_selected then
      if c.sub_addr = CTRL_REG_STATUS then true
      else if c.sub_addr = (CTRL_REG_START ||| CTRL_REG_STOP ||| CTRL_REG_STEP) then true
      else if c.sub_addr = CTRL_REG_PC then true
      else if c.sub_addr = CTRL_REG_DBG_VECTOR then true
      else c.control_address_valid
    else c.control_address_valid
  | .write_issue =>
    if c.control_selected then
      if c.sub_addr = CTRL_REG_START then true
      else if c.sub_addr = CTRL_REG_STOP then true
      else if c.sub_addr = CTRL_REG_STEP then true
      else if c.sub_addr = CTRL_REG_PC then true
      else c.control_address_valid
    else c.control_address_valid
  | _ => c.control_address_valid

def pc_stall' : Bool :=
  match c.state with
  | .write_issue =>
    if c.control_selected then
      if c.sub_addr = CTRL_REG_START then false
      else if c.sub_addr = CTRL_REG_STOP then true
      -- low for one cycle: WRITE_WAIT_DONE raises it again
      else if c.sub_addr = CTRL_REG_STEP then false
      else c.pc_stall
    else c.pc_stall
  | .write_wait_done =>
    if c.control_selected then
      if c.sub_addr = CTRL_REG_STEP then true else c.pc_stall
    else c.pc_stall
  | _ => c.pc_stall

/-- One clock edge. -/
def next : SocControl where
  state := c.next_state i
  op_successful := c.op_successful'
  read_data := c.read_data' i
  latched_address := c.latched_address' i
  latched_write_data := c.latched_write_data' i
  latched_write_strobe := c.latched_write_strobe' i
  pc_stall := c.pc_stall'
  control_read_data := c.control_read_data' i
  control_address_valid := c.control_address_valid'

end SocControl

end RiscvWorker
