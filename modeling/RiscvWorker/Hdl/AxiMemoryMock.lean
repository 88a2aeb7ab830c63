import RiscvWorker.Library.WordStore
import RiscvWorker.Hdl.Params

/-! # axi_memory_mock.v

  An AXI4-Lite slave with two word memories of 1024 words; address bit 12
  selects the instruction memory.
-/

namespace RiscvWorker

open AxiLite (Master Slave)
open WordStore (Store)

/-- The registers of the slave and its two memories. -/
structure AxiMemoryMock where
  i_data : Store (BitVec 10)
  d_data : Store (BitVec 10)
  awready : Bool
  wready : Bool
  bvalid : Bool
  bresp : BitVec 2
  /-- The latched write index; the register is wider than the index. -/
  axi_awaddr_latched : BitVec 12
  arready : Bool
  rvalid : Bool
  rresp : BitVec 2
  rdata : Word

namespace AxiMemoryMock

def reset : AxiMemoryMock where
  i_data _ := 0#32
  d_data _ := 0#32
  awready := true
  wready := false
  bvalid := false
  bresp := AXI_RESP_OKAY
  axi_awaddr_latched := 0#12
  arready := false
  rvalid := false
  rresp := AXI_RESP_OKAY
  rdata := 0#32

/-! ### Address fields -/

def memory_index (addr : Word) : BitVec 10 := addr.extractLsb' 2 10

def memory_selector (addr : Word) : Bool := addr.getLsbD 12

/-! ### Outputs -/

variable (s : AxiMemoryMock) (m : Master)

/-- The slave's side of the port. -/
def port : Slave where
  awready := s.awready
  wready := s.wready
  bvalid := s.bvalid
  bresp := s.bresp
  arready := s.arready
  rvalid := s.rvalid
  rdata := s.rdata
  rresp := s.rresp

/-! ### Clock edge -/

/-- Read process. -/
def next_arready : Bool :=
  if !s.arready && !s.rvalid && m.arvalid then true
  else if m.arvalid && s.arready then false
  else s.arready

def next_rvalid : Bool :=
  if !s.arready && !s.rvalid && m.arvalid then s.rvalid
  else if m.arvalid && s.arready then true
  else if m.rready && s.rvalid then false
  else s.rvalid

/-- The word that a read address selects. -/
def read (addr : Word) : Word :=
  if memory_selector addr then s.i_data (memory_index addr) else s.d_data (memory_index addr)

def next_rdata : Word :=
  if !s.arready && !s.rvalid && m.arvalid then s.rdata
  else if m.arvalid && s.arready then s.read m.araddr
  else s.rdata

def next_rresp : BitVec 2 :=
  if !s.arready && !s.rvalid && m.arvalid then s.rresp
  else if m.arvalid && s.arready then AXI_RESP_OKAY
  else s.rresp

/-- Write process. -/
def next_awready : Bool :=
  if m.awvalid && s.awready then false
  else if m.wvalid && s.wready then s.awready
  else if s.bvalid && m.bready then true
  else s.awready

def next_wready : Bool :=
  if m.awvalid && s.awready then true
  else if m.wvalid && s.wready then false
  else s.wready

def next_bvalid : Bool :=
  if m.awvalid && s.awready then s.bvalid
  else if m.wvalid && s.wready then true
  else if s.bvalid && m.bready then false
  else s.bvalid

def next_bresp : BitVec 2 :=
  if m.awvalid && s.awready then s.bresp
  else if m.wvalid && s.wready then AXI_RESP_OKAY
  else s.bresp

def next_awaddr_latched : BitVec 12 :=
  if m.awvalid && s.awready then (memory_index m.awaddr).setWidth 12 else s.axi_awaddr_latched

/-- A write to `data[axi_awaddr_latched]`; an index past the end of the array
    writes nothing. -/
def write_latched (data : Store (BitVec 10)) : Store (BitVec 10) :=
  if s.axi_awaddr_latched.toNat < 1024 then
    WordStore.write data (s.axi_awaddr_latched.setWidth 10) m.wdata m.wstrb
  else data

/-- The memory is selected by the address lines of the data phase. -/
def next_i_data : Store (BitVec 10) :=
  if m.wvalid && s.wready then
    if memory_selector m.awaddr then s.write_latched m s.i_data else s.i_data
  else s.i_data

def next_d_data : Store (BitVec 10) :=
  if m.wvalid && s.wready then
    if memory_selector m.awaddr then s.d_data else s.write_latched m s.d_data
  else s.d_data

/-- One clock edge. -/
def next : AxiMemoryMock where
  i_data := s.next_i_data m
  d_data := s.next_d_data m
  awready := s.next_awready m
  wready := s.next_wready m
  bvalid := s.next_bvalid m
  bresp := s.next_bresp m
  axi_awaddr_latched := s.next_awaddr_latched m
  arready := s.next_arready m
  rvalid := s.next_rvalid m
  rresp := s.next_rresp m
  rdata := s.next_rdata m

end AxiMemoryMock

end RiscvWorker
