import RiscvWorker.Core.Execution
import RiscvWorker.System.DebugPort

/-! # Stability of the memory port

  Once a request is on the memory port it has to stay there, unchanged,
  until it is accepted. The valid signals do. The payload is not latched: it
  is computed from the PC and the registers, and stays the same exactly as
  long as no write of the control module changes it on its way.
-/

namespace RiscvWorker

open AxiLite (Master Slave Held)

/-! ### Debug writes and waiting requests -/

namespace RiscvCpu

/-- The value of register `r` after the write of the control module in this
    cycle. -/
def debug_read (s : RiscvCpu) (cm : CmPort) (r : BitVec 5) : Word :=
  (CmAndCore.debug_write cm s.debug_state).x r

/-- The word in memory that a store with `v1` in rs1 addresses. -/
def store_word (s : RiscvCpu) (v1 : Word) : BitVec 30 :=
  (v1 + s.decoded.imm).extractLsb' 2 30

/-- The strobe and the data of a store with `v1` in rs1 and `v2` in rs2. -/
def store_lanes (s : RiscvCpu) (v1 v2 : Word) : BitVec 4 × Word :=
  (LoadStoreDecoder.byte_enb (v1 + s.decoded.imm) s.decoded.func3,
    LoadStoreDecoder.data s.mem_write_data (v1 + s.decoded.imm) s.decoded.func3 v2)

/-- No write of the control module in this cycle changes what reaches the
    port of a waiting request: the PC of a fetch, the address of a load, the
    word a store addresses, its byte lanes. -/
structure Undisturbed (s : RiscvCpu) (i : Input) : Prop where
  fetch : s.memory_arbiter.state = .pc_wait_arready → i.m_axi.arready = false →
    i.cm.cm_pc_stall = true → i.cm.cm_pc_we = true → i.cm.cm_pc_write_data = s.pc
  load : s.memory_arbiter.state = .l_wait_arready → i.m_axi.arready = false →
    s.debug_read i.cm s.decoded.rs1_addr = s.rs1
  store_addr : s.memory_arbiter.state = .s_wait_both ∨ s.memory_arbiter.state = .s_wait_awready →
    i.m_axi.awready = false →
    s.store_word (s.debug_read i.cm s.decoded.rs1_addr) = s.store_word s.rs1
  store_data : s.memory_arbiter.state = .s_wait_both ∨ s.memory_arbiter.state = .s_wait_wready →
    i.m_axi.wready = false →
    s.store_lanes (s.debug_read i.cm s.decoded.rs1_addr) (s.debug_read i.cm s.decoded.rs2_addr) =
      s.store_lanes s.rs1 s.rs2

variable {s : RiscvCpu} {p : Phase} {i : Input}

theorem debug_read_of_quiet (hq : i.cm.quiet) (r : BitVec 5) :
    s.debug_read i.cm r = s.register_file.read r := by
  unfold debug_read
  rw [CmAndCore.debug_write_of_quiet hq]
  rfl

/-- Nothing is disturbed while the control module does not write. -/
theorem undisturbed_of_quiet (hq : i.cm.quiet) : s.Undisturbed i where
  fetch _ _ _ hwe := absurd (hq.1.symm.trans hwe) (by decide)
  load _ _ := debug_read_of_quiet hq _
  store_addr _ _ := by
    rw [debug_read_of_quiet hq]
    rfl
  store_data _ _ := by
    rw [debug_read_of_quiet hq, debug_read_of_quiet hq]
    rfl

/-! ### What a clock edge does to the payload -/

/-- The operands after a clock edge. -/
theorem At.operands_next (h : s.At p) (hn : p ≠ .next_pc) (hf : p ≠ .fetch_data) :
    (s.next i).rs1 = s.debug_read i.cm s.decoded.rs1_addr ∧
      (s.next i).rs2 = s.debug_read i.cm s.decoded.rs2_addr := by
  have hw : (s.register_file_input i).write_enable = false := by
    rw [h.write_enable]
    simp [hn]
  have hread := CmAndCore.read_next_of_debug i (Or.inl hw)
  unfold rs1 rs2 debug_read
  rw [h.decoded_next hf, hread]
  exact ⟨rfl, rfl⟩

theorem mem_addr_of_load (hw : s.decoded.mem_is_write = false) (hmem : s.decoded.use_mem = true) :
    s.mem_addr = s.rs1 + s.decoded.imm := by
  unfold mem_addr mem_addr_aux
  rw [hw, hmem]
  rfl

theorem mem_addr_of_store (hw : s.decoded.mem_is_write = true) (hmem : s.decoded.use_mem = true) :
    s.mem_addr = s.store_word s.rs1 ++ 0b00#2 := by
  unfold mem_addr mem_addr_aux store_word
  rw [hw, hmem]
  rfl

theorem alu_out_of_use_mem (hmem : s.decoded.use_mem = true) :
    s.alu_out = s.rs1 + s.decoded.imm := by
  obtain ⟨hsrc1, hsrc2⟩ := decode_use_mem hmem
  have hctrl : s.decoded.alu_ctrl = ALU_CTRL_ADD := by
    have hop : InstructionDecode.opcode s.instruction_latched = OPCODE_LOAD ∨
        InstructionDecode.opcode s.instruction_latched = OPCODE_STORE := by
      simpa [decoded, instruction_decode] using hmem
    rcases hop with hop | hop <;>
      simp [decoded, instruction_decode, InstructionDecode.alu_ctrl, hop]
  rw [← RiscvCpu.decoded] at hsrc1 hsrc2
  rw [alu_out_add hctrl, alu_src1, alu_src2, hsrc1, hsrc2]
  rfl

/-- The byte lanes on the port are those of the operands. -/
theorem store_lanes_eq (hmem : s.decoded.use_mem = true) :
    s.store_lanes s.rs1 s.rs2 = (s.mem_write_strobe, s.mem_write_data) := by
  unfold store_lanes mem_write_strobe
  rw [← alu_out_of_use_mem hmem, mem_write_data, data_idempotent]

/-- The byte lanes after a clock edge. The data path keeps its last value
    where the new address selects no branch. -/
theorem At.store_lanes_next (h : s.At p) (hmem : s.decoded.use_mem = true) (hn : p ≠ .next_pc)
    (hf : p ≠ .fetch_data) :
    ((s.next i).mem_write_strobe, (s.next i).mem_write_data) =
      s.store_lanes (s.debug_read i.cm s.decoded.rs1_addr)
        (s.debug_read i.cm s.decoded.rs2_addr) := by
  have hd := h.decoded_next (i := i) hf
  obtain ⟨h1, h2⟩ := h.operands_next (i := i) hn hf
  have hlatched : (s.next i).latched_data = s.mem_write_data := rfl
  rw [mem_write_strobe, mem_write_data, alu_out_of_use_mem (by rw [hd]; exact hmem), hd, h1, h2,
    hlatched]
  rfl

/-- Until its address is accepted, a fetch keeps its PC exactly if no other
    PC is written. -/
theorem At.pc_next_iff (h : s.At .fetch_addr) (hready : i.m_axi.arready = false) :
    (s.next i).pc = s.pc ↔
      (i.cm.cm_pc_stall = true → i.cm.cm_pc_we = true → i.cm.cm_pc_write_data = s.pc) := by
  have htrans := h.pc_transaction i
  rw [h.pc_next, if_neg (by decide)]
  simp only [htrans, hready]
  cases i.cm.cm_pc_stall <;> cases i.cm.cm_pc_we <;> simp

/-! ### The three channels -/

/-- The read address channel: a fetch or a load. -/
theorem At.ar_held_iff (h : s.At p) (i' : Input) :
    ((s.m_axi i).arvalid = true → i.m_axi.arready = false →
      ((s.next i).m_axi i').arvalid = true ∧ ((s.next i).m_axi i').araddr = (s.m_axi i).araddr) ↔
    (p = .fetch_addr → i.m_axi.arready = false → i.cm.cm_pc_stall = true → i.cm.cm_pc_we = true →
      i.cm.cm_pc_write_data = s.pc) ∧
    (p = .load_addr → i.m_axi.arready = false →
      s.debug_read i.cm s.decoded.rs1_addr = s.rs1) := by
  have hport := (h.next i).m_axi i'
  have hfits := h.fits
  rw [h.m_axi, hport]
  cases hready : i.m_axi.arready with
  | true => simp
  | false =>
  cases p with
  | waiting =>
    -- a fetch that begins needs the stall low, a debug write needs it high
    have hpc := h.pc_next i
    have htrans := h.pc_transaction i
    cases hst : i.cm.cm_pc_stall with
    | true => simp [port]
    | false => simp [Phase.next, port, hst, hready, hpc, htrans]
  | fetch_addr =>
    have hpc := h.pc_next_iff hready
    simp [Phase.next, port, hready, hpc]
  | load_addr =>
    obtain ⟨hmem, hw⟩ := hfits
    have hd := h.decoded_next (i := i) (by decide)
    have h1 := (h.operands_next (i := i) (by decide) (by decide)).1
    have haddr : (s.next i).mem_addr =
        s.debug_read i.cm s.decoded.rs1_addr + s.decoded.imm := by
      rw [mem_addr_of_load (by rw [hd]; exact hw) (by rw [hd]; exact hmem), hd, h1]
    simp [Phase.next, port, hready, haddr, mem_addr_of_load hw hmem]
  | _ => simp [port, Master.idle]

/-- The address of a store after a clock edge. -/
theorem At.awaddr_next_iff (h : s.At p) (hp : p = .store_both ∨ p = .store_addr) :
    (s.next i).mem_addr = s.mem_addr ↔
      s.store_word (s.debug_read i.cm s.decoded.rs1_addr) = s.store_word s.rs1 := by
  have hf : p ≠ .fetch_data := by rcases hp with rfl | rfl <;> decide
  have hn : p ≠ .next_pc := by rcases hp with rfl | rfl <;> decide
  obtain ⟨hmem, hw⟩ : s.decoded.use_mem = true ∧ s.decoded.mem_is_write = true := by
    have hfits := h.fits
    rcases hp with rfl | rfl <;> exact hfits
  have hd := h.decoded_next (i := i) hf
  have h1 := (h.operands_next (i := i) hn hf).1
  have hnext : (s.next i).mem_addr =
      s.store_word (s.debug_read i.cm s.decoded.rs1_addr) ++ 0b00#2 := by
    rw [mem_addr_of_store (by rw [hd]; exact hw) (by rw [hd]; exact hmem), h1, store_word, hd]
    rfl
  rw [hnext, mem_addr_of_store hw hmem]
  exact BitVec.append_left_inj 0b00#2

/-- The write address channel: a store. -/
theorem At.aw_held_iff (h : s.At p) (i' : Input) :
    ((s.m_axi i).awvalid = true → i.m_axi.awready = false →
      ((s.next i).m_axi i').awvalid = true ∧ ((s.next i).m_axi i').awaddr = (s.m_axi i).awaddr) ↔
    (p = .store_both ∨ p = .store_addr → i.m_axi.awready = false →
      s.store_word (s.debug_read i.cm s.decoded.rs1_addr) = s.store_word s.rs1) := by
  have hport := (h.next i).m_axi i'
  rw [h.m_axi, hport]
  cases hready : i.m_axi.awready with
  | true => simp
  | false =>
  cases p with
  | store_both =>
    have haddr := h.awaddr_next_iff (i := i) (Or.inl rfl)
    cases hw : i.m_axi.wready <;> simp [Phase.next, port, hready, hw, haddr]
  | store_addr =>
    have haddr := h.awaddr_next_iff (i := i) (Or.inr rfl)
    simp [Phase.next, port, hready, haddr]
  | _ => simp [port, Master.idle]

/-- The write data channel. -/
theorem At.w_held_iff (h : s.At p) (i' : Input) :
    ((s.m_axi i).wvalid = true → i.m_axi.wready = false →
      ((s.next i).m_axi i').wvalid = true ∧ ((s.next i).m_axi i').wdata = (s.m_axi i).wdata ∧
        ((s.next i).m_axi i').wstrb = (s.m_axi i).wstrb) ↔
    (p = .store_both ∨ p = .store_data → i.m_axi.wready = false →
      s.store_lanes (s.debug_read i.cm s.decoded.rs1_addr)
        (s.debug_read i.cm s.decoded.rs2_addr) = s.store_lanes s.rs1 s.rs2) := by
  have hport := (h.next i).m_axi i'
  rw [h.m_axi, hport]
  cases hready : i.m_axi.wready with
  | true => simp
  | false =>
  cases p with
  | store_both =>
    have hmem := h.fits.1
    rw [← h.store_lanes_next hmem (by decide) (by decide), store_lanes_eq hmem]
    cases hw : i.m_axi.awready <;> simp [Phase.next, port, hready, hw, and_comm]
  | store_data =>
    have hmem := h.fits.1
    rw [← h.store_lanes_next hmem (by decide) (by decide), store_lanes_eq hmem]
    simp [Phase.next, port, hready, and_comm]
  | _ => simp [port, Master.idle]

/-- The arbiter's waiting states as phases. -/
theorem At.arbiter_waiting (h : s.At p) :
    (s.memory_arbiter.state = .pc_wait_arready ↔ p = .fetch_addr) ∧
    (s.memory_arbiter.state = .l_wait_arready ↔ p = .load_addr) ∧
    (s.memory_arbiter.state = .s_wait_both ↔ p = .store_both) ∧
    (s.memory_arbiter.state = .s_wait_awready ↔ p = .store_addr) ∧
    (s.memory_arbiter.state = .s_wait_wready ↔ p = .store_data) := by
  obtain ⟨-, -, -, -, -, harb, -⟩ := h.fields
  rw [harb]
  cases p <;> simp [Phase.flags]

/-- Every waiting request is held in a cycle exactly if none is disturbed. -/
theorem At.held_iff (h : s.At p) (i' : Input) :
    Held (s.m_axi i) i.m_axi ((s.next i).m_axi i') ↔ s.Undisturbed i := by
  obtain ⟨hfetch, hload, hboth, haddr, hdata⟩ := h.arbiter_waiting
  have har := h.ar_held_iff (i := i) i'
  have haw := h.aw_held_iff (i := i) i'
  have hw := h.w_held_iff (i := i) i'
  constructor
  · intro hheld
    refine ⟨?_, ?_, ?_, ?_⟩
    · rw [hfetch]
      exact (har.mp hheld.ar).1
    · rw [hload]
      exact (har.mp hheld.ar).2
    · rw [hboth, haddr]
      exact haw.mp hheld.aw
    · rw [hboth, hdata]
      exact hw.mp hheld.w
  · intro hu
    refine ⟨har.mpr ⟨?_, ?_⟩, haw.mpr ?_, hw.mpr ?_⟩
    · rw [← hfetch]
      exact hu.fetch
    · rw [← hload]
      exact hu.load
    · rw [← hboth, ← haddr]
      exact hu.store_addr
    · rw [← hboth, ← hdata]
      exact hu.store_data

end RiscvCpu

/-! ### Runs of the whole system -/

namespace CmAndCore

/-- In a run every request on the memory port is held until it is accepted
    exactly if no cycle disturbs a waiting one. -/
theorem requests_held_iff {e : Lts.Execution CmAndCore Input} (hv : system.valid_exec e) :
    (∀ k, Held ((e.states k).m_axi (e.labels k)) (e.labels k).m_axi
      ((e.states (k + 1)).m_axi (e.labels (k + 1)))) ↔
    ∀ k, (e.states k).cpu.Undisturbed ((e.states k).cpu_input (e.labels k)) := by
  refine forall_congr' fun k => ?_
  obtain ⟨p, hp⟩ := phase_of_run hv k
  have hnext : e.states (k + 1) = (e.states k).next (e.labels k) := hv.2 k
  rw [hnext]
  exact hp.held_iff _

/-! ### A disturbed fetch -/

/-- A STEP, and then `later` on the control port; the slave accepts nothing. -/
def step_then (later : Master) (k : Nat) : Input where
  s_axi := if k < 6 then .writing 0x6000100C#32 0#32 0b1111#4 else later
  m_axi := Slave.idle

/-- While the fetch of a STEP waits, the PC is written. -/
def disturbed_run : Lts.Execution CmAndCore Input :=
  .of_inputs next reset (step_then (.writing 0x60001010#32 0x2000#32 0b1111#4))

/-- The address of the waiting fetch changes. -/
theorem fetch_address_not_held :
    ∃ e : Lts.Execution CmAndCore Input, system.valid_exec e ∧
      ((e.states 9).m_axi (e.labels 9)).arvalid = true ∧ (e.labels 9).m_axi.arready = false ∧
      ((e.states 9).m_axi (e.labels 9)).araddr = 0x1000#32 ∧
      ((e.states 10).m_axi (e.labels 10)).araddr = 0x2000#32 ∧
      ¬ Held ((e.states 9).m_axi (e.labels 9)) (e.labels 9).m_axi
        ((e.states 10).m_axi (e.labels 10)) := by
  have hbefore : ((disturbed_run.states 9).m_axi (disturbed_run.labels 9)).araddr = 0x1000#32 := by
    decide +kernel
  have hafter : ((disturbed_run.states 10).m_axi (disturbed_run.labels 10)).araddr = 0x2000#32 := by
    decide +kernel
  have hvalid : ((disturbed_run.states 9).m_axi (disturbed_run.labels 9)).arvalid = true := by
    decide +kernel
  refine ⟨disturbed_run, ⟨rfl, fun _ => rfl⟩, hvalid, rfl, hbefore, hafter, ?_⟩
  intro hheld
  have haddr := (hheld.ar hvalid rfl).2
  rw [hbefore, hafter] at haddr
  simp at haddr

/-- After the STEP the master is idle. -/
def undisturbed_run : Lts.Execution CmAndCore Input :=
  .of_inputs next reset (step_then Master.idle)

theorem undisturbed_run_valid : system.valid_exec undisturbed_run := ⟨rfl, fun _ => rfl⟩

theorem undisturbed_run_step : SocControl.WriteTransaction (control undisturbed_run) 0 1 2 5 :=
  .of_fast_master (control_step undisturbed_run_valid.2) rfl (fun _ _ hj => if_pos (by omega))

/-- The only write is the STEP, and it enables nothing. -/
theorem undisturbed_run_quiet (k : Nat) : (undisturbed_run.states k).cm.quiet := by
  have hs := control_step undisturbed_run_valid.2
  by_cases hissue : k = 3
  · rw [hissue]
    exact ⟨by decide +kernel, by decide +kernel, by decide +kernel⟩
  apply quiet_of_not_issue
  by_cases hk : k ≤ 5
  · exact undisturbed_run_step.not_issue hs (Nat.zero_le k) hk hissue
  · have hidle : (undisturbed_run.states k).soc_control.state = .idle := by
      refine SocControl.stays_idle hs (undisturbed_run_step.idle_after hs) (by omega) ?_
      intro j hj _
      have hmaster : ((control undisturbed_run).labels j).s_axi = .idle := if_neg (by omega)
      rw [hmaster]
      exact ⟨rfl, rfl⟩
    rw [hidle]
    decide

/-- The fetch of the STEP is held. -/
theorem requests_held_step :
    ((undisturbed_run.states 9).m_axi (undisturbed_run.labels 9)).arvalid = true ∧
    Held ((undisturbed_run.states 9).m_axi (undisturbed_run.labels 9))
      (undisturbed_run.labels 9).m_axi
      ((undisturbed_run.states 10).m_axi (undisturbed_run.labels 10)) := by
  exact ⟨by decide +kernel, (requests_held_iff undisturbed_run_valid).mpr
    (fun k => RiscvCpu.undisturbed_of_quiet (undisturbed_run_quiet k)) 9⟩

end CmAndCore

end RiscvWorker
