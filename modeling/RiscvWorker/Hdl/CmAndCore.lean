import RiscvWorker.Hdl.SocControl
import RiscvWorker.Hdl.RiscvCpu

/-! # cm_and_core.v

  The control module and the core, wired together.
-/

namespace RiscvWorker

open AxiLite (Master Slave)

/-- The registers of `cm_and_core`. -/
structure CmAndCore where
  soc_control : SocControl
  cpu : RiscvCpu

namespace CmAndCore

/-- The inputs of one cycle: the master on the control port and the slave on
    the memory port. -/
structure Input where
  s_axi : Master
  m_axi : Slave
  deriving DecidableEq, Repr

def reset : CmAndCore where
  soc_control := SocControl.reset
  cpu := RiscvCpu.reset

variable (s : CmAndCore) (i : Input)

/-- What the control module drives towards the core. All of it is a function
    of the control module's registers. -/
def cm : CmPort where
  cm_pc_stall := s.soc_control.pc_stall
  cm_pc_we := s.soc_control.pc_write_enable
  cm_pc_write_data := s.soc_control.pc_write_data
  cm_regfile_addr := s.soc_control.regfile_addr
  cm_regfile_we := s.soc_control.regfile_write_enable
  cm_regfile_write_data := s.soc_control.regfile_write_data
  cm_regfile_fault_addr := s.soc_control.regfile_fault_addr
  cm_regfile_fault_mode := s.soc_control.regfile_fault_mode
  cm_regfile_fault_mask := s.soc_control.regfile_fault_mask
  cm_regfile_fault_enable := s.soc_control.regfile_fault_enable

def cpu_input : RiscvCpu.Input where
  m_axi := i.m_axi
  cm := s.cm

def soc_input : SocControl.Input where
  s_axi := i.s_axi
  pc_read_data := s.cpu.pc
  regfile_read_data := s.cpu.register_file.extra_read_data
  core_debug_vector := s.cpu.cm_debug_vector (s.cpu_input i)

/-- The slave side of the control port. -/
def s_axi : Slave := s.soc_control.s_axi

/-- The master side of the memory port. -/
def m_axi : Master := s.cpu.m_axi (s.cpu_input i)

/-- One clock edge. -/
def next : CmAndCore where
  soc_control := s.soc_control.next (s.soc_input i)
  cpu := s.cpu.next (s.cpu_input i)

end CmAndCore

end RiscvWorker
