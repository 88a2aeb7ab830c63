import RiscvWorker.Hdl.Params

/-! # memory_arbiter.v

  One AXI4-Lite master port shared by instruction fetch and load/store.
-/

namespace RiscvWorker

open AxiLite (Master Slave)

/-- The states of the arbiter. -/
inductive ArbiterState where
  | idle
  | pc_wait_arready
  | pc_data
  | l_wait_arready
  | l_data
  | s_wait_both
  | s_wait_awready
  | s_wait_wready
  | s_resp
  deriving DecidableEq, Repr

/-- The registers of the arbiter. -/
structure MemoryArbiter where
  state : ArbiterState
  load_store_result_valid : Bool
  load_data : Word
  deriving DecidableEq, Repr

namespace MemoryArbiter

/-- The inputs of one cycle: the slave's side of the port, the fetch
    requester and the load/store requester. -/
structure Input where
  m_axi : Slave
  pc_valid : Bool
  pc : Word
  instruction_ready : Bool
  load_store_valid : Bool
  load_store_addr : Word
  load_store_is_write : Bool
  store_strobe : BitVec 4
  store_data : Word
  deriving DecidableEq, Repr

def reset : MemoryArbiter where
  state := .idle
  load_store_result_valid := false
  load_data := 0#32

variable (a : MemoryArbiter) (i : Input)

/-! ### Combinational outputs -/

def arvalid : Bool :=
  match a.state with
  | .idle => i.pc_valid
  | .pc_wait_arready => true
  | .l_wait_arready => true
  | _ => false

def araddr : Word :=
  match a.state with
  | .idle => if i.pc_valid then i.pc else 0#32
  | .pc_wait_arready => i.pc
  | .l_wait_arready => i.load_store_addr
  | _ => 0#32

def rready : Bool :=
  match a.state with
  | .pc_data => i.instruction_ready
  | .l_data => true
  | _ => false

def pc_ready : Bool :=
  match a.state with
  | .idle => i.pc_valid && i.m_axi.arready
  | .pc_wait_arready => i.m_axi.arready
  | _ => false

def instruction_valid : Bool :=
  match a.state with
  | .pc_data => i.m_axi.rvalid
  | _ => false

def instruction : Word :=
  match a.state with
  | .pc_data => i.m_axi.rdata
  | _ => 0#32

def load_store_ready : Bool := a.state == .idle && !i.pc_valid

/-- The master's side of the port. -/
def m_axi : Master where
  awvalid := a.state == .s_wait_both || a.state == .s_wait_awready
  awaddr :=
    match a.state with
    | .s_wait_both => i.load_store_addr
    | .s_wait_awready => i.load_store_addr
    | _ => 0#32
  wvalid := a.state == .s_wait_both || a.state == .s_wait_wready
  wdata :=
    match a.state with
    | .s_wait_both => i.store_data
    | .s_wait_wready => i.store_data
    | _ => 0#32
  wstrb :=
    match a.state with
    | .s_wait_both => i.store_strobe
    | .s_wait_wready => i.store_strobe
    | _ => 0#4
  bready := a.state == .s_resp
  arvalid := a.arvalid i
  araddr := a.araddr i
  rready := a.rready i

/-! ### State machine -/

def next_state : ArbiterState :=
  match a.state with
  | .idle =>
    -- the address phase of a fetch is skipped if the slave is ready at once
    if i.pc_valid then
      if a.arvalid i && i.m_axi.arready then .pc_data else .pc_wait_arready
    -- a fetch has priority over a load or a store
    else if i.load_store_valid && a.load_store_ready i then
      if i.load_store_is_write then .s_wait_both else .l_wait_arready
    else .idle
  | .pc_wait_arready => if i.m_axi.arready then .pc_data else .pc_wait_arready
  | .l_wait_arready => if i.m_axi.arready then .l_data else .l_wait_arready
  | .s_wait_both =>
    -- address and data may be accepted in either order
    if i.m_axi.awready && i.m_axi.wready then .s_resp
    else if i.m_axi.awready then .s_wait_wready
    else if i.m_axi.wready then .s_wait_awready
    else .s_wait_both
  | .s_wait_awready => if i.m_axi.awready then .s_resp else .s_wait_awready
  | .s_wait_wready => if i.m_axi.wready then .s_resp else .s_wait_wready
  | .pc_data => if i.m_axi.rvalid && i.instruction_ready then .idle else .pc_data
  | .l_data => if i.m_axi.rvalid then .idle else .l_data
  | .s_resp => if i.m_axi.bvalid then .idle else .s_resp

/-- One clock edge. -/
def next : MemoryArbiter where
  state := a.next_state i
  load_store_result_valid :=
    -- a pulse of one cycle, one cycle after the transfer
    if a.state = .l_data ∧ a.next_state i = .idle then true
    else if a.state = .s_resp ∧ a.next_state i = .idle then true
    else false
  load_data :=
    if a.state = .l_data ∧ a.next_state i = .idle then i.m_axi.rdata
    else a.load_data

end MemoryArbiter

end RiscvWorker
