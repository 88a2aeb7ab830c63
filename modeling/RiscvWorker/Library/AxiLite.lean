import Mathlib.Data.BitVec

/-! # AXI4-Lite channels

  The five channels of an AXI4-Lite port, split by who drives them, and the
  handshakes of one cycle. A transfer happens on a channel in exactly those
  cycles in which both VALID and READY are high.

  The protection signals carry no meaning here and are left out.
-/

namespace AxiLite

/-- Data and addresses are 32 bits wide. -/
abbrev Word : Type := BitVec 32

/-- The signals a master drives during one cycle. -/
structure Master where
  awvalid : Bool
  awaddr : Word
  wvalid : Bool
  wdata : Word
  wstrb : BitVec 4
  bready : Bool
  arvalid : Bool
  araddr : Word
  rready : Bool
  deriving DecidableEq, Repr

/-- The signals a slave drives during one cycle. -/
structure Slave where
  awready : Bool
  wready : Bool
  bvalid : Bool
  bresp : BitVec 2
  arready : Bool
  rvalid : Bool
  rdata : Word
  rresp : BitVec 2
  deriving DecidableEq, Repr

/-! ### Handshakes -/

def aw_handshake (m : Master) (s : Slave) : Bool := m.awvalid && s.awready
def w_handshake (m : Master) (s : Slave) : Bool := m.wvalid && s.wready
def b_handshake (m : Master) (s : Slave) : Bool := s.bvalid && m.bready
def ar_handshake (m : Master) (s : Slave) : Bool := m.arvalid && s.arready
def r_handshake (m : Master) (s : Slave) : Bool := s.rvalid && m.rready

section channels
variable {m : Master} (s : Slave)

theorem aw_handshake_of_idle (h : m.awvalid = false) : aw_handshake m s = false := by
  rw [aw_handshake, h, Bool.false_and]

theorem w_handshake_of_idle (h : m.wvalid = false) : w_handshake m s = false := by
  rw [w_handshake, h, Bool.false_and]

theorem ar_handshake_of_idle (h : m.arvalid = false) : ar_handshake m s = false := by
  rw [ar_handshake, h, Bool.false_and]

theorem ar_handshake_of_request (h : m.arvalid = true) : ar_handshake m s = s.arready := by
  rw [ar_handshake, h, Bool.true_and]

theorem r_handshake_of_ready (h : m.rready = true) : r_handshake m s = s.rvalid := by
  rw [r_handshake, h, Bool.and_true]

end channels

/-- A master's request that is not accepted in this cycle is held in the
    next one, with the same payload. -/
structure Held (m : Master) (s : Slave) (m' : Master) : Prop where
  ar : m.arvalid = true → s.arready = false → m'.arvalid = true ∧ m'.araddr = m.araddr
  aw : m.awvalid = true → s.awready = false → m'.awvalid = true ∧ m'.awaddr = m.awaddr
  w : m.wvalid = true → s.wready = false →
    m'.wvalid = true ∧ m'.wdata = m.wdata ∧ m'.wstrb = m.wstrb

/-- A master that drives no channel. -/
def Master.idle : Master where
  awvalid := false
  awaddr := 0
  wvalid := false
  wdata := 0
  wstrb := 0
  bready := false
  arvalid := false
  araddr := 0
  rready := false

/-- A master that writes as fast as the slave lets it. -/
def Master.writing (addr data : Word) (strb : BitVec 4) : Master :=
  { Master.idle with
    awvalid := true, awaddr := addr, wvalid := true, wdata := data, wstrb := strb, bready := true }

/-- A master that reads as fast as the slave lets it. -/
def Master.reading (addr : Word) : Master :=
  { Master.idle with arvalid := true, araddr := addr, rready := true }

/-- A slave that drives no channel. -/
def Slave.idle : Slave where
  awready := false
  wready := false
  bvalid := false
  bresp := 0
  arready := false
  rvalid := false
  rdata := 0
  rresp := 0

end AxiLite
