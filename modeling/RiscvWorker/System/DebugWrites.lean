import RiscvWorker.System.Machine
import RiscvWorker.System.Session

/-! # Debug writes to a core that is not halted

  The register file has one write port for three writers, with the write back
  of the core first; the PC takes a debug write only under the stall, and the
  transactions of the core come first. The control module looks at none of
  this and answers OKAY. The theorem says when an acknowledged write lands.
-/

namespace RiscvWorker

open AxiLite (Master Slave MemorySlave)
open ByteMemory

namespace CmAndCore

/-- The core writes a register back in this cycle. -/
def writes_back (s : CmAndCore) : Bool :=
  s.cpu.decoded.do_write_back && s.cpu.next_pc_transaction && s.cpu.decoded.rd_addr != 0#5

section registers
variable {s : CmAndCore} (i : Input)

theorem write_port_eq :
    ((s.cpu.register_file_input (s.cpu_input i)).write_enable &&
      s.cpu.decoded.rd_addr != 0#5) = s.writes_back := by
  show (s.cpu.decoded.do_write_back && s.cpu.next_pc_valid && s.cpu.next_pc_ready && _) = _
  unfold writes_back RiscvCpu.next_pc_transaction
  rw [← Bool.and_assoc s.cpu.decoded.do_write_back]

/-- Without a write back the registers take the debug write. -/
theorem read_next_of_no_write_back (hw : s.writes_back = false) :
    (s.next i).cpu.register_file.read = (debug_write s.cm s.cpu.debug_state).x := by
  apply read_next_of_debug (s.cpu_input i)
  -- an instruction that writes to x0 leaves the port to the control module
  by_cases hrd : s.cpu.decoded.rd_addr = 0#5
  · exact Or.inr hrd
  · rw [← write_port_eq i, bne_iff_ne.mpr hrd, Bool.and_true] at hw
    exact Or.inl hw

/-- The write back takes the port, whatever the control module writes. -/
theorem read_next_of_write_back (hw : s.writes_back = true) :
    (s.next i).cpu.register_file.read =
      RegisterFile.update s.cpu.register_file.read s.cpu.decoded.rd_addr
        s.cpu.write_back_data := by
  have hport := write_port_eq (s := s) i
  rw [hw] at hport
  have hrd : s.cpu.decoded.rd_addr ≠ 0#5 := by
    obtain ⟨-, hrd⟩ := Bool.and_eq_true_iff.mp hport
    exact bne_iff_ne.mp hrd
  apply RiscvCpu.read_update hrd
  exact if_pos hport

end registers

/-! ### The PC -/

section pc
variable {e : Lts.Execution CmAndCore Input}

/-- A PC that waits for its fetch under the stall takes the debug write. -/
theorem pc_next_of_debug {s : CmAndCore} {p : Phase} (h : s.cpu.At p) {i : Input}
    (hst : s.soc_control.pc_stall = true) (hpend : s.cpu.pc_release_pending = true)
    (hfetch : s.fetches i = false) :
    (s.next i).cpu.pc = (debug_write s.cm s.cpu.debug_state).pc ∧
      (s.next i).cpu.pc_release_pending = true := by
  have hpending : p.is_pending = true := by
    rw [← Phase.flags_pending, ← h.fields.1, hpend]
  have hne : p ≠ .next_pc := by
    rintro rfl
    exact absurd hpending (by decide)
  have hst' : (s.cpu_input i).cm.cm_pc_stall = true := hst
  have hready : (s.cpu_input i).m_axi = i.m_axi := rfl
  have hno := mt (fetches_iff h i).mpr (by rw [hfetch]; decide)
  -- no PC transaction in this cycle
  have htrans : s.cpu.pc_transaction (s.cpu_input i) = false := by
    rw [h.pc_transaction, hst', hready]
    cases p <;> simp_all [Phase.is_pending]
  have hpc : (s.next i).cpu.pc = _ := h.pc_next (s.cpu_input i)
  have hat : (s.next i).cpu.At _ := h.next (s.cpu_input i)
  refine ⟨?_, ?_⟩
  · rw [hpc, if_neg hne, htrans, hst']
    simp only [Bool.false_eq_true, if_false, Bool.true_and]
    rfl
  · rw [hat.fields.1, Phase.flags_pending]
    cases p <;> simp_all [Phase.next, Phase.is_pending]

/-- Before its fetch a PC changes by debug writes only. -/
theorem pc_kept_next {s : CmAndCore} {p : Phase} (h : s.cpu.At p) {i : Input}
    (hpend : s.cpu.pc_release_pending = true) (hfetch : s.fetches i = false)
    (hwe : s.soc_control.pc_write_enable = false) :
    (s.next i).cpu.pc = s.cpu.pc ∧ (s.next i).cpu.pc_release_pending = true := by
  have hpending : p.is_pending = true := by
    rw [← Phase.flags_pending, ← h.fields.1, hpend]
  have hne : p ≠ .next_pc := by
    rintro rfl
    exact absurd hpending (by decide)
  have hwe' : (s.cpu_input i).cm.cm_pc_we = false := hwe
  have hready : (s.cpu_input i).m_axi = i.m_axi := rfl
  have hstall : (s.cpu_input i).cm.cm_pc_stall = s.soc_control.pc_stall := rfl
  have hno := mt (fetches_iff h i).mpr (by rw [hfetch]; decide)
  have hpc : (s.next i).cpu.pc = _ := h.pc_next (s.cpu_input i)
  have hat : (s.next i).cpu.At _ := h.next (s.cpu_input i)
  refine ⟨?_, ?_⟩
  · rw [hpc, if_neg hne, hwe', Bool.and_false]
    simp
  · rw [hat.fields.1, Phase.flags_pending]
    cases p <;> simp only [Phase.next, hready, hstall] <;> (repeat' split) <;>
      simp_all [Phase.is_pending]

/-- A PC stays what it is until its fetch, if no other PC is written. -/
theorem pc_kept_until_fetch (hv : system.valid_exec e) {t k : Nat} (htk : t ≤ k)
    (hpend : (e.states t).cpu.pc_release_pending = true)
    (hnone : ∀ j, t ≤ j → j < k → (e.states j).fetches (e.labels j) = false)
    (hwe : ∀ j, t ≤ j → j < k → (e.states j).soc_control.pc_write_enable = false) :
    (e.states k).cpu.pc = (e.states t).cpu.pc ∧
      (e.states k).cpu.pc_release_pending = true := by
  refine Lts.stretch_induction (P := fun k => (e.states k).cpu.pc = (e.states t).cpu.pc ∧
    (e.states k).cpu.pc_release_pending = true) htk ⟨rfl, hpend⟩ ?_
  intro j hj hjk ⟨hpc, hpend'⟩
  obtain ⟨p, hp⟩ := phase_of_run hv j
  have hstep : e.states (j + 1) = (e.states j).next (e.labels j) := hv.2 j
  obtain ⟨hpc', hpend''⟩ := pc_kept_next hp hpend' (hnone j hj hjk) (hwe j hj hjk)
  rw [hstep]
  exact ⟨hpc'.trans hpc, hpend''⟩

/-- A fetch is one of the PC. -/
theorem fetch_address {s : CmAndCore} {p : Phase} (h : s.cpu.At p) {i : Input}
    (hf : s.fetches i = true) : (s.m_axi i).araddr = s.cpu.pc := by
  have hport : s.m_axi i = s.cpu.port s.soc_control.pc_stall p := h.m_axi _
  obtain ⟨hphase, -⟩ := (fetches_iff h i).mp hf
  -- the only other read address is that of a load
  rcases hphase with ⟨rfl, hst⟩ | rfl
  · rw [hport, hst]
    rfl
  · rw [hport]
    rfl

end pc

/-! ### Acknowledged writes -/

section acknowledged
variable {e : Lts.Execution CmAndCore Input} {t ta tw tb : Nat}

/-- A write that is answered OKAY is carried out with a full strobe. -/
theorem issues_of_okay (hs : ∀ k, e.states (k + 1) = (e.states k).next (e.labels k))
    (h : SocControl.WriteTransaction (control e) t ta tw tb)
    (hok : (e.states tb).s_axi.bresp = AXI_RESP_OKAY) :
    (e.states (tw + 1)).Issues (e.labels ta).s_axi.awaddr (e.labels tw).s_axi.wdata ∧
      okay_write (e.labels ta).s_axi.awaddr 0b1111#4 := by
  have hokay : okay_write (e.labels ta).s_axi.awaddr (e.labels tw).s_axi.wstrb :=
    (h.bresp (control_step hs)).1.mp hok
  obtain ⟨hP, haddr, hdata, hstrb⟩ := h.issue (control_step hs)
  exact ⟨⟨hP.state, haddr, hdata, hstrb.trans hokay.1⟩, hokay.1 ▸ hokay⟩

end acknowledged

/-- When an acknowledged debug write lands. A register or fault write lands
    at the edge that ends WRITE_ISSUE, unless an instruction writes a register
    back at that edge; then it is dropped. A PC write lands if the core is
    stalled and its PC still waits for the fetch: then the next fetch, if no
    other PC is written before it, is from the written PC. -/
theorem debug_write_lands {e : Lts.Execution CmAndCore Input} (hv : system.valid_exec e)
    {t ta tw tb : Nat} (h : SocControl.WriteTransaction (control e) t ta tw tb)
    (hok : (e.states tb).s_axi.bresp = AXI_RESP_OKAY) :
    (∀ r, selector (e.labels ta).s_axi.awaddr = SUB_SEL_REGFILE →
      window_offset (e.labels ta).s_axi.awaddr = register_offset r →
      (e.states (tw + 1)).writes_back = false →
      (e.states (tw + 2)).cpu.register_file.read =
        RegisterFile.update (e.states (tw + 1)).cpu.register_file.read r
          (e.labels tw).s_axi.wdata) ∧
    (∀ mode r, selector (e.labels ta).s_axi.awaddr = SUB_SEL_FAULT →
      window_offset (e.labels ta).s_axi.awaddr = fault_offset mode r →
      (e.states (tw + 1)).writes_back = false →
      (e.states (tw + 2)).cpu.register_file.read =
        RegisterFile.update (e.states (tw + 1)).cpu.register_file.read r
          (fault_injector ((e.states (tw + 1)).cpu.register_file.read r)
            (e.labels tw).s_axi.wdata mode)) ∧
    ((e.states (tw + 1)).writes_back = true →
      (e.states (tw + 2)).cpu.register_file.read =
        RegisterFile.update (e.states (tw + 1)).cpu.register_file.read
          (e.states (tw + 1)).cpu.decoded.rd_addr (e.states (tw + 1)).cpu.write_back_data) ∧
    (selector (e.labels ta).s_axi.awaddr = SUB_SEL_CTRL →
      window_offset (e.labels ta).s_axi.awaddr = CTRL_REG_PC →
      (e.states (tw + 1)).soc_control.pc_stall = true →
      (e.states (tw + 1)).cpu.pc_release_pending = true →
      (e.states (tw + 1)).fetches (e.labels (tw + 1)) = false →
      (e.states (tw + 2)).cpu.pc = (e.labels tw).s_axi.wdata ∧
      ∀ k, tw + 2 ≤ k → (e.states k).fetches (e.labels k) = true →
        (∀ j, tw + 2 ≤ j → j < k → (e.states j).fetches (e.labels j) = false) →
        (∀ j, tw + 2 ≤ j → j < k → (e.states j).soc_control.pc_write_enable = false) →
        ((e.states k).m_axi (e.labels k)).araddr = (e.labels tw).s_axi.wdata) := by
  obtain ⟨hissues, hokay⟩ := issues_of_okay hv.2 h hok
  have hstep : e.states (tw + 2) = (e.states (tw + 1)).next (e.labels (tw + 1)) := hv.2 (tw + 1)
  refine ⟨?_, ?_, ?_, ?_⟩
  · intro r hsel hoff hw
    have hr := okay_write_register hokay hsel hoff
    rw [hstep, read_next_of_no_write_back _ hw, hissues.debug_write_register hr hsel hoff]
    rfl
  · intro mode r hsel hoff hw
    have hr := okay_write_fault hokay hsel hoff
    rw [hstep, read_next_of_no_write_back _ hw, hissues.debug_write_fault hr hsel hoff]
    rfl
  · intro hw
    rw [hstep, read_next_of_write_back _ hw]
  · intro hsel hoff hst hpend hfetch
    obtain ⟨p, hp⟩ := phase_of_run hv (tw + 1)
    obtain ⟨hpc, hpend'⟩ := pc_next_of_debug hp hst hpend hfetch
    rw [hissues.debug_write_pc hsel hoff, ← hstep] at hpc
    rw [← hstep] at hpend'
    refine ⟨hpc, ?_⟩
    intro k hk hf hnone hwe
    obtain ⟨q, hq⟩ := phase_of_run hv k
    rw [fetch_address hq hf, (pc_kept_until_fetch hv hk hpend' hnone hwe).1]
    exact hpc

end CmAndCore

namespace Machine

/-- `addi x1, x0, 1` everywhere. -/
def addis : Memory := fun a =>
  if a.toNat % 4 = 0 then 0x93#8 else if a.toNat % 4 = 2 then 0x10#8 else 0#8

/-- A write to the PC of the halted core and START, then a write to x2 and a
    fault of x2, between two write backs of the running core. -/
def landing_run : Lts.Execution Machine Input :=
  .of_inputs next (boot addis) fun k =>
    { s_axi :=
        if k < 6 then .writing 0x60001010#32 0x2000#32 0b1111#4
        else if k < 12 then .writing 0x60001004#32 1#32 0b1111#4
        else if k < 18 then .writing 0x60002008#32 0xABCD#32 0b1111#4
        else .writing 0x60003108#32 0xFFFF#32 0b1111#4
      choice := MemorySlave.eager }

theorem landing_run_valid : (system addis).valid_exec landing_run := ⟨rfl, fun _ => rfl⟩

theorem landing_run_pc : SocControl.WriteTransaction (control_run landing_run) 0 1 2 5 :=
  .of_fast_master (control_run_step landing_run_valid) rfl (fun _ _ hj => if_pos (by omega))

theorem landing_run_start : SocControl.WriteTransaction (control_run landing_run) 6 7 8 11 :=
  have hs := control_run_step landing_run_valid
  .of_fast_master hs (landing_run_pc.idle_after hs)
    (fun _ hj hj' => (if_neg (by omega)).trans (if_pos (by omega)))

theorem landing_run_register :
    SocControl.WriteTransaction (control_run landing_run) 12 13 14 17 :=
  have hs := control_run_step landing_run_valid
  .of_fast_master hs (landing_run_start.idle_after hs)
    (fun _ hj hj' => ((if_neg (by omega)).trans (if_neg (by omega))).trans (if_pos (by omega)))

theorem landing_run_fault : SocControl.WriteTransaction (control_run landing_run) 18 19 20 23 :=
  have hs := control_run_step landing_run_valid
  .of_fast_master hs (landing_run_register.idle_after hs)
    (fun _ hj _ => ((if_neg (by omega)).trans (if_neg (by omega))).trans (if_neg (by omega)))

/-- START, and then a write to x2 and one to the PC of the running core. -/
def lost_writes_run : Lts.Execution Machine Input :=
  .of_inputs next (boot addis) fun k =>
    { s_axi :=
        if k < 6 then .writing 0x60001004#32 1#32 0b1111#4
        else if k < 10 then .idle
        else if k < 16 then .writing 0x60002008#32 0xABCD#32 0b1111#4
        else .writing 0x60001010#32 0x2000#32 0b1111#4
      choice := MemorySlave.eager }

theorem lost_writes_run_valid : (system addis).valid_exec lost_writes_run :=
  ⟨rfl, fun _ => rfl⟩

theorem lost_writes_run_start :
    SocControl.WriteTransaction (control_run lost_writes_run) 0 1 2 5 :=
  .of_fast_master (control_run_step lost_writes_run_valid) rfl (fun _ _ hj => if_pos (by omega))

theorem lost_writes_run_register :
    SocControl.WriteTransaction (control_run lost_writes_run) 10 11 12 15 :=
  have hs := control_run_step lost_writes_run_valid
  have hidle := idle_while lost_writes_run_valid (n := 6) (j := 10)
    (lost_writes_run_start.idle_after hs) (by decide)
    (fun _ hk hk' => (if_neg (by omega)).trans (if_pos (by omega)))
  .of_fast_master hs hidle
    (fun _ hj hj' => ((if_neg (by omega)).trans (if_neg (by omega))).trans (if_pos (by omega)))

theorem lost_writes_run_pc :
    SocControl.WriteTransaction (control_run lost_writes_run) 16 17 18 21 :=
  have hs := control_run_step lost_writes_run_valid
  .of_fast_master hs (lost_writes_run_register.idle_after hs)
    (fun _ hj _ => ((if_neg (by omega)).trans (if_neg (by omega))).trans (if_neg (by omega)))

/-- The first fetch is from the written PC, x2 takes the write and the fault,
    and a write that meets a write back is dropped. -/
theorem debug_writes_landed :
    ((landing_run.states 10).chip.m_axi ((chip_run landing_run).labels 10)).araddr = 0x2000#32 ∧
    (landing_run.states 16).chip.cpu.register_file.read 2#5 = 0xABCD#32 ∧
    (landing_run.states 22).chip.cpu.register_file.read 2#5 = 0x5432#32 ∧
    (lost_writes_run.states 14).chip.cpu.register_file.read =
      RegisterFile.update (lost_writes_run.states 13).chip.cpu.register_file.read 1#5 1#32 := by
  have hv := chip_run_valid landing_run_valid
  obtain ⟨-, -, -, hpc⟩ := CmAndCore.debug_write_lands hv landing_run_pc (by decide +kernel)
  obtain ⟨hregister, -, -, -⟩ :=
    CmAndCore.debug_write_lands hv landing_run_register (by decide +kernel)
  obtain ⟨-, hfault, -, -⟩ :=
    CmAndCore.debug_write_lands hv landing_run_fault (by decide +kernel)
  obtain ⟨-, -, hdropped, -⟩ := CmAndCore.debug_write_lands (chip_run_valid lost_writes_run_valid)
    lost_writes_run_register (by decide +kernel)
  have hx2 : (landing_run.states 16).chip.cpu.register_file.read = _ :=
    hregister 2#5 (by decide) (by decide) (by decide +kernel)
  have hflipped : (landing_run.states 22).chip.cpu.register_file.read = _ :=
    hfault 1#2 2#5 (by decide) (by decide) (by decide +kernel)
  have hrd : (lost_writes_run.states 13).chip.cpu.decoded.rd_addr = 1#5 := by decide +kernel
  have hdata : (lost_writes_run.states 13).chip.cpu.write_back_data = 1#32 := by decide +kernel
  have hother : (lost_writes_run.states 14).chip.cpu.register_file.read = _ :=
    hdropped (by decide +kernel)
  refine ⟨?_, ?_, ?_, ?_⟩
  · refine (hpc (by decide) (by decide) (by decide +kernel) (by decide +kernel)
      (by decide +kernel)).2 10 (by decide) (by decide +kernel) ?_ ?_
    · have hnone : ∀ j, j < 10 →
          (landing_run.states j).chip.fetches ((chip_run landing_run).labels j) = false := by
        decide +kernel
      exact fun j _ hj => hnone j hj
    · have hnone : ∀ j, j < 10 → 4 ≤ j →
          (landing_run.states j).chip.soc_control.pc_write_enable = false := by
        decide +kernel
      exact fun j hj hj' => hnone j hj' hj
  · rw [hx2]
    rfl
  · rw [hflipped]
    decide +kernel
  · rw [hother, ← hrd, ← hdata]
    rfl

/-- Two acknowledged writes are lost: the one to x2, whose edge a write back
    takes, and the one to the PC, which the running core does not take. -/
theorem acknowledged_writes_lost :
    ∃ e : Lts.Execution CmAndCore CmAndCore.Input, CmAndCore.system.valid_exec e ∧
      SocControl.WriteTransaction (CmAndCore.control e) 10 11 12 15 ∧
      (e.labels 11).s_axi.awaddr = 0x60002008#32 ∧
      (e.labels 12).s_axi.wdata = 0xABCD#32 ∧ (e.labels 12).s_axi.wstrb = 0b1111#4 ∧
      (e.states 15).s_axi.bresp = AXI_RESP_OKAY ∧
      (e.states 14).cpu.register_file.read 2#5 = 0#32 ∧
      SocControl.WriteTransaction (CmAndCore.control e) 16 17 18 21 ∧
      (e.labels 17).s_axi.awaddr = 0x60001010#32 ∧
      (e.labels 18).s_axi.wdata = 0x2000#32 ∧ (e.labels 18).s_axi.wstrb = 0b1111#4 ∧
      (e.states 21).s_axi.bresp = AXI_RESP_OKAY ∧
      (∀ j, 20 ≤ j → j < 24 → (e.states j).fetches (e.labels j) = false) ∧
      (e.states 24).fetches (e.labels 24) = true ∧
      ((e.states 24).m_axi (e.labels 24)).araddr = 0x1010#32 := by
  refine ⟨chip_run lost_writes_run, chip_run_valid lost_writes_run_valid,
    lost_writes_run_register, rfl, rfl, rfl, by decide +kernel, by decide +kernel,
    lost_writes_run_pc, rfl, rfl, rfl, by decide +kernel, ?_, by decide +kernel,
    by decide +kernel⟩
  intro j h1 h2
  have hj : j = 20 ∨ j = 21 ∨ j = 22 ∨ j = 23 := by omega
  rcases hj with rfl | rfl | rfl | rfl <;> decide +kernel

end Machine

end RiscvWorker
