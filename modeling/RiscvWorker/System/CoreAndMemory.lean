import RiscvWorker.Library.Lts
import RiscvWorker.Library.MemorySlave
import RiscvWorker.Core.ClockEdge
import RiscvWorker.Core.Execution

/-! # The core and its memory

  `riscv_cpu` on the port of a memory that answers with arbitrary delays.
  The control module's inputs are arbitrary here, so this composition is
  also the lower half of the whole system.
-/

namespace RiscvWorker

open AxiLite (Master Slave MemorySlave aw_handshake w_handshake b_handshake ar_handshake
  r_handshake)
open ByteMemory

/-- The registers of the core and the state of the memory. -/
structure CoreAndMemory where
  cpu : RiscvCpu
  memory : MemorySlave

namespace CoreAndMemory

/-- The inputs of one cycle: the control module, and what the memory decides. -/
structure Input where
  cm : CmPort
  choice : MemorySlave.Choice
  deriving DecidableEq, Repr

/-- After reset, with a program in memory. -/
def boot (program : Memory) : CoreAndMemory where
  cpu := RiscvCpu.reset
  memory := MemorySlave.idle program

variable (s : CoreAndMemory) (i : Input)

def cpu_input : RiscvCpu.Input where
  m_axi := s.memory.port i.choice
  cm := i.cm

/-- What the core drives on the memory port. -/
def m_axi : Master := s.cpu.m_axi (s.cpu_input i)

/-- One clock edge. -/
def next : CoreAndMemory where
  cpu := s.cpu.next (s.cpu_input i)
  memory := s.memory.next i.choice (s.m_axi i)

/-- The core and a memory that initially holds `program`. -/
def system (program : Memory) : Lts.System CoreAndMemory Input where
  init s := s = boot program
  step s i s' := s' = s.next i

/-- The architectural state. -/
def arch : Rv32i.ArchState := s.cpu.arch s.memory.mem

/-! ### The access under way in each phase -/

/-- The access the core last started. -/
structure Access where
  addr : Word
  data : Word
  strb : BitVec 4

/-- What the core puts into an access in each phase. -/
def Access.update (cpu : RiscvCpu) (acc : Access) : Phase → Access
  | .waiting | .fetch_addr => { acc with addr := cpu.pc }
  | .load_addr | .store_addr => { acc with addr := cpu.mem_addr }
  | .store_both =>
    { addr := cpu.mem_addr, data := cpu.mem_write_data, strb := cpu.mem_write_strobe }
  | .store_data => { acc with data := cpu.mem_write_data, strb := cpu.mem_write_strobe }
  | _ => acc

/-- The memory holds `M` and carries out the access `acc` of phase `p`. -/
def Accesses (M : Memory) (acc : Access) (p : Phase) (m : MemorySlave) : Prop :=
  match p with
  | .fetch_data | .load_data => MemorySlave.Reading M acc.addr m
  | .store_addr => m = MemorySlave.has_data M acc.data acc.strb
  | .store_data => m = MemorySlave.has_addr M acc.addr
  | .store_resp => MemorySlave.Writing M acc.addr acc.data acc.strb m
  | _ => m = MemorySlave.idle M

/-- What the memory holds after a cycle in phase `p`: a store has taken
    effect when it is acknowledged. -/
def memory_after (M : Memory) (acc : Access) (p : Phase) (bvalid : Bool) : Memory :=
  if p = .store_resp ∧ bvalid = true then write_word M acc.addr acc.data acc.strb else M

variable {s i} {p : Phase} {M : Memory} {acc : Access}

/-- One clock edge of the memory, phase by phase. -/
theorem accesses_next (h : s.cpu.At p) (hm : Accesses M acc p s.memory) :
    Accesses (memory_after M acc p (s.memory.port i.choice).bvalid) (acc.update s.cpu p)
      (p.next s.cpu.decoded (s.cpu_input i)) (s.next i).memory := by
  have hport : s.m_axi i = s.cpu.port i.cm.cm_pc_stall p := h.m_axi (s.cpu_input i)
  have hnext : (s.next i).memory = s.memory.next i.choice (s.cpu.port i.cm.cm_pc_stall p) := by
    rw [← hport]
    rfl
  have hin : (s.cpu_input i).m_axi = s.memory.port i.choice := rfl
  have hst : (s.cpu_input i).cm = i.cm := rfl
  have hafter : p ≠ .store_resp →
      memory_after M acc p (s.memory.port i.choice).bvalid = M := by
    intro hne
    unfold memory_after
    rw [if_neg (fun hc => hne hc.1)]
  rw [hnext]
  -- in each phase the rule of the memory for what the core drives there
  cases p with
  | waiting =>
    obtain hm : s.memory = MemorySlave.idle M := hm
    rw [hafter (by decide), hm]
    simp only [Phase.next, hin, hst, hm]
    cases hs : i.cm.cm_pc_stall with
    | true => exact MemorySlave.idle_next rfl rfl rfl
    | false =>
      have hr := @MemorySlave.idle_next_read i.choice (s.cpu.port false .waiting) M rfl rfl rfl
      cases hc : ((MemorySlave.idle M).port i.choice).arready <;> rw [hc] at hr <;> exact hr
  | fetch_addr =>
    obtain hm : s.memory = MemorySlave.idle M := hm
    rw [hafter (by decide), hm]
    simp only [Phase.next, hin, hm]
    have hr := @MemorySlave.idle_next_read i.choice (s.cpu.port i.cm.cm_pc_stall .fetch_addr) M
      rfl rfl rfl
    cases hc : ((MemorySlave.idle M).port i.choice).arready <;> rw [hc] at hr <;> exact hr
  | load_addr =>
    obtain hm : s.memory = MemorySlave.idle M := hm
    rw [hafter (by decide), hm]
    simp only [Phase.next, hin, hm]
    have hr := @MemorySlave.idle_next_read i.choice (s.cpu.port i.cm.cm_pc_stall .load_addr) M
      rfl rfl rfl
    cases hc : ((MemorySlave.idle M).port i.choice).arready <;> rw [hc] at hr <;> exact hr
  | fetch_data =>
    have hr := @MemorySlave.reading_next _ i.choice (s.cpu.port i.cm.cm_pc_stall .fetch_data) _ _ hm
      rfl rfl rfl rfl
    rw [hafter (by decide)]
    simp only [Phase.next, hin]
    cases hc : (s.memory.port i.choice).rvalid <;> rw [hc] at hr <;> exact hr
  | load_data =>
    have hr := @MemorySlave.reading_next _ i.choice (s.cpu.port i.cm.cm_pc_stall .load_data) _ _ hm
      rfl rfl rfl rfl
    rw [hafter (by decide)]
    simp only [Phase.next, hin]
    cases hc : (s.memory.port i.choice).rvalid <;> rw [hc] at hr <;> exact hr
  | store_both =>
    obtain hm : s.memory = MemorySlave.idle M := hm
    rw [hafter (by decide), hm]
    simp only [Phase.next, hin, hm]
    have haw : ((MemorySlave.idle M).port i.choice).awready =
        aw_handshake (s.cpu.port i.cm.cm_pc_stall .store_both)
          ((MemorySlave.idle M).port i.choice) := rfl
    have hw : ((MemorySlave.idle M).port i.choice).wready =
        w_handshake (s.cpu.port i.cm.cm_pc_stall .store_both)
          ((MemorySlave.idle M).port i.choice) := rfl
    rw [haw, hw]
    cases hca : aw_handshake (s.cpu.port i.cm.cm_pc_stall .store_both)
        ((MemorySlave.idle M).port i.choice) <;>
      cases hcw : w_handshake (s.cpu.port i.cm.cm_pc_stall .store_both)
        ((MemorySlave.idle M).port i.choice)
    -- neither, the data, the address, or both are accepted
    · exact MemorySlave.idle_stays hca hcw rfl
    · exact MemorySlave.idle_accepts_data hca hcw rfl
    · exact MemorySlave.idle_accepts_addr hca hcw rfl
    · exact MemorySlave.idle_accepts_write hca hcw rfl
  | store_addr =>
    obtain hm : s.memory = MemorySlave.has_data M acc.data acc.strb := hm
    rw [hafter (by decide), hm]
    simp only [Phase.next, hin, hm]
    have hr := @MemorySlave.has_data_next i.choice
      (s.cpu.port i.cm.cm_pc_stall .store_addr) M acc.data acc.strb rfl rfl
    have hv : aw_handshake (s.cpu.port i.cm.cm_pc_stall .store_addr)
        ((MemorySlave.has_data M acc.data acc.strb).port i.choice) = i.choice.awready := rfl
    have haw : ((MemorySlave.has_data M acc.data acc.strb).port i.choice).awready =
        i.choice.awready := rfl
    rw [hv] at hr
    rw [haw]
    cases hc : i.choice.awready <;> rw [hc] at hr <;> exact hr
  | store_data =>
    obtain hm : s.memory = MemorySlave.has_addr M acc.addr := hm
    rw [hafter (by decide), hm]
    simp only [Phase.next, hin, hm]
    have hr := @MemorySlave.has_addr_next i.choice
      (s.cpu.port i.cm.cm_pc_stall .store_data) M acc.addr rfl rfl
    have hv : w_handshake (s.cpu.port i.cm.cm_pc_stall .store_data)
        ((MemorySlave.has_addr M acc.addr).port i.choice) = i.choice.wready := rfl
    have hw : ((MemorySlave.has_addr M acc.addr).port i.choice).wready = i.choice.wready := rfl
    rw [hv] at hr
    rw [hw]
    cases hc : i.choice.wready <;> rw [hc] at hr <;> exact hr
  | store_resp =>
    have hr := @MemorySlave.Writing.next _ i.choice (s.cpu.port i.cm.cm_pc_stall .store_resp)
      _ _ _ _ hm rfl rfl rfl
    simp only [Phase.next, hin]
    have hv : b_handshake (s.cpu.port i.cm.cm_pc_stall .store_resp) (s.memory.port i.choice) =
        (s.memory.port i.choice).bvalid := Bool.and_true _
    rw [hv] at hr
    cases hc : (s.memory.port i.choice).bvalid <;> rw [hc] at hr <;> exact hr
  | decoded =>
    obtain hm : s.memory = MemorySlave.idle M := hm
    rw [hafter (by decide), hm]
    simp only [Phase.next]
    (repeat' split) <;> exact MemorySlave.idle_next rfl rfl rfl
  | alu_result | mem_result | next_pc =>
    obtain hm : s.memory = MemorySlave.idle M := hm
    rw [hafter (by decide), hm]
    exact MemorySlave.idle_next rfl rfl rfl

end CoreAndMemory

end RiscvWorker
