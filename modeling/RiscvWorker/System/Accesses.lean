import RiscvWorker.System.Latency
import RiscvWorker.System.Halting
import RiscvWorker.System.Session

/-! # Accesses between instructions

  What one access of the processing system does to a machine in the middle of
  its life. The access is a transaction on the control port with any delays
  of the master; after its answer the master pauses long enough for an
  instruction in flight to retire. Seen like this the machine is *settled*
  before and after every access: the port is free, and a stalled core waits.
-/

namespace RiscvWorker

open AxiLite (Master Slave MemorySlave)
open ByteMemory
open Rv32i (ArchState)

/-! ### Stretches of a run of the core -/

namespace CoreAndMemory

/-- Nothing that the control module drives in this cycle reaches the core:
    a write to the PC is lost while the stall is low. -/
structure Harmless (cm : CmPort) : Prop where
  pc : cm.cm_pc_stall = true → cm.cm_pc_we = false
  registers : cm.cm_regfile_we = false
  fault : cm.cm_regfile_fault_enable = false

theorem harmless_of_quiet {cm : CmPort} (h : cm.quiet) : Harmless cm :=
  ⟨fun _ => h.1, h.2.1, h.2.2⟩

/-- A harmless cycle is as good as a quiet one. -/
theorem Harmless.next_eq {s : CoreAndMemory} {i : Input} (h : Harmless i.cm) :
    ∃ i' : Input, i'.cm.quiet ∧ s.next i' = s.next i ∧
      ∀ p : Phase,
        p.next s.cpu.decoded (s.cpu_input i') = p.next s.cpu.decoded (s.cpu_input i) := by
  refine ⟨{ i with cm := { i.cm with cm_pc_we := false } }, ⟨rfl, h.registers, h.fault⟩, ?_,
    fun p => by cases p <;> rfl⟩
  have hwe : (i.cm.cm_pc_stall && i.cm.cm_pc_we) = false := by
    cases hst : i.cm.cm_pc_stall with
    | true => rw [h.pc hst]; rfl
    | false => rfl
  -- the PC is the only register that looks at the enable
  have hpc : s.cpu.pc' (s.cpu_input { i with cm := { i.cm with cm_pc_we := false } }) =
      s.cpu.pc' (s.cpu_input i) := by
    have hwe' : ((s.cpu_input i).cm.cm_pc_stall && (s.cpu_input i).cm.cm_pc_we) = false := hwe
    unfold RiscvCpu.pc'
    rw [hwe', show ((s.cpu_input { i with cm := { i.cm with cm_pc_we := false } }).cm.cm_pc_stall &&
      (s.cpu_input { i with cm := { i.cm with cm_pc_we := false } }).cm.cm_pc_we) = false from
      Bool.and_false _]
    rfl
  simp only [next, RiscvCpu.next, hpc]
  rfl

section harmless
variable {s : CoreAndMemory} {i : Input} {p : Phase} {A : ArchState}

theorem Tracks.harmless (h : Tracks s p A) (hq : Harmless i.cm) (hp : p ≠ .next_pc) :
    Tracks (s.next i) (p.next s.cpu.decoded (s.cpu_input i)) A := by
  obtain ⟨i', hquiet, hnext, hphase⟩ := hq.next_eq (s := s)
  have hstutter := h.stutter hquiet hp
  rwa [hnext, hphase] at hstutter

theorem Tracks.retire_harmless (h : Tracks s .next_pc A) (hq : Harmless i.cm) {A' : ArchState}
    (hstep : Rv32i.step A = some A') : Tracks (s.next i) .waiting A' := by
  obtain ⟨i', hquiet, hnext, -⟩ := hq.next_eq (s := s)
  have hretired := h.retire hquiet hstep
  rwa [hnext] at hretired

end harmless

section stretches
variable {e : Lts.Execution CoreAndMemory Input} {ph : Nat → Phase} (hr : PhaseRun e ph)
  {t k : Nat} (htk : t ≤ k) {A : ArchState}
include hr htk

/-- A waiting core goes on waiting under the stall. -/
theorem PhaseRun.stays_waiting (hw : ph t = .waiting)
    (hst : ∀ j, t ≤ j → j < k → (e.labels j).cm.cm_pc_stall = true) : ph k = .waiting := by
  refine Lts.stretch_induction (P := fun k => ph k = .waiting) htk hw ?_
  intro j htj hjk hj
  have hst' : ((e.states j).cpu_input (e.labels j)).cm.cm_pc_stall = true := hst j htj hjk
  rw [hr.next j, hj]
  exact if_pos hst'

/-- A stalled core comes to rest. -/
theorem PhaseRun.rests {D : Nat} (hprompt : Prompt D e)
    (hst : ∀ j, t ≤ j → j < k → (e.labels j).cm.cm_pc_stall = true)
    (hpause : t + (5 * D + 8) ≤ k) : ph k = .waiting := by
  by_cases hw : ph t = .waiting
  · exact hr.stays_waiting htk hw hst
  · obtain ⟨j, htj, hjt, hn, -⟩ := hr.retires_within hprompt hw
    have hle : (ph t).budget D ≤ 5 * D + 7 := by
      generalize ph t = p at hw
      cases p with
      | waiting => exact absurd rfl hw
      | _ => simp only [Phase.budget]; omega
    have hw' : ph (j + 1) = .waiting := by
      rw [hr.next j, hn]
      rfl
    exact hr.stays_waiting (by omega) hw' (fun i hi hik => hst i (by omega) hik)

/-- Harmless cycles without NEXT_PC keep the architectural state. -/
theorem PhaseRun.keeps (htracks : Tracks (e.states t) (ph t) A)
    (hq : ∀ j, t ≤ j → j < k → Harmless (e.labels j).cm)
    (hn : ∀ j, t ≤ j → j < k → ph j ≠ .next_pc) : Tracks (e.states k) (ph k) A := by
  refine Lts.stretch_induction (P := fun k => Tracks (e.states k) (ph k) A) htk htracks ?_
  intro j htj hjk hj
  rw [hr.step j, hr.next j]
  exact hj.harmless (hq j htj hjk) (hn j htj hjk)

/-- A halted core keeps the architectural state. -/
theorem PhaseRun.frozen (htracks : Tracks (e.states t) (ph t) A) (hw : ph t = .waiting)
    (hst : ∀ j, t ≤ j → j < k → (e.labels j).cm.cm_pc_stall = true)
    (hq : ∀ j, t ≤ j → j < k → Harmless (e.labels j).cm) : Tracks (e.states k) (ph k) A := by
  refine hr.keeps htk htracks hq ?_
  intro j htj hjk hn
  have hwj := hr.stays_waiting htj hw (fun i hi hij => hst i hi (by omega))
  rw [hwj] at hn
  cases hn

/-- A core whose program never gets stuck runs it. -/
theorem PhaseRun.runs (htracks : Tracks (e.states t) (ph t) A)
    (hendless : Lts.Endless Rv32i.step A)
    (hq : ∀ j, t ≤ j → j < k → Harmless (e.labels j).cm) :
    ∃ A', Lts.Reaches Rv32i.step A A' ∧ Tracks (e.states k) (ph k) A' := by
  refine Lts.stretch_induction (P := fun k => ∃ A', Lts.Reaches Rv32i.step A A' ∧
    Tracks (e.states k) (ph k) A') htk ⟨A, .refl A, htracks⟩ ?_
  rintro j htj hjk ⟨B, hB, hj⟩
  rw [hr.step j, hr.next j]
  by_cases hn : ph j = .next_pc
  · obtain ⟨C, hC⟩ := (hendless.of_reaches hB).step
    rw [hn] at hj ⊢
    exact ⟨C, hB.trans (.single hC), hj.retire_harmless (hq j htj hjk) hC⟩
  · exact ⟨B, hB, hj.harmless (hq j htj hjk) hn⟩

omit htk in
/-- A waiting core that is released for one cycle makes one step. -/
theorem PhaseRun.steps_once {D : Nat} (hprompt : Prompt D e)
    (htracks : Tracks (e.states t) (ph t) A) (hw : ph t = .waiting)
    (hrel : (e.labels t).cm.cm_pc_stall = false)
    (hst : ∀ j, t < j → j < k → (e.labels j).cm.cm_pc_stall = true)
    (hq : ∀ j, t ≤ j → j < k → Harmless (e.labels j).cm) (hpause : t + (5 * D + 9) ≤ k)
    {A' : ArchState} (hA' : Rv32i.step A = some A') :
    Tracks (e.states k) (ph k) A' ∧ ph k = .waiting := by
  obtain ⟨j, htj, hjt, hn, hbefore⟩ := hr.first_next_pc hprompt hw hrel
  have hj := hr.keeps htj htracks (fun i hi hij => hq i hi (by omega)) hbefore
  rw [hn] at hj
  have hretired := hj.retire_harmless (hq j htj (by omega)) hA'
  have hw' : ph (j + 1) = .waiting := by
    rw [hr.next j, hn]
    rfl
  rw [← hr.step j, ← hw'] at hretired
  have hstalled : ∀ i, j + 1 ≤ i → i < k → (e.labels i).cm.cm_pc_stall = true :=
    fun i hi hik => hst i (by omega) hik
  exact ⟨hr.frozen (by omega) hretired hw' hstalled (fun i hi hik => hq i (by omega) hik),
    hr.stays_waiting (by omega) hw' hstalled⟩

end stretches

end CoreAndMemory

/-! ### One access -/

namespace CmAndCore

/-- An access of the processing system on the control port, from its first
    cycle to the cycle of its answer. Writes have all four strobes set. -/
inductive Transaction (e : Lts.Execution CmAndCore Input) :
    Firmware.Access → Nat → Nat → Prop where
  | write {addr data : Word} {t ta tw tb : Nat} :
    SocControl.WriteTransaction (control e) t ta tw tb →
    (e.labels ta).s_axi.awaddr = addr →
    (e.labels tw).s_axi.wdata = data ∧ (e.labels tw).s_axi.wstrb = 0b1111#4 →
    Transaction e (.out32 addr data) t tb
  | read {addr : Word} {ta tr : Nat} :
    SocControl.ReadTransaction (control e) ta tr →
    (e.labels ta).s_axi.araddr = addr →
    Transaction e (.in32 addr) ta tr

end CmAndCore

namespace Machine

open CmAndCore (Transaction Issues)

/-- The core with its memory. -/
def core (s : Machine) : CoreAndMemory := ⟨s.chip.cpu, s.memory⟩

/-- The longest time an instruction in flight may take. -/
def pause (D : Nat) : Nat := 5 * D + 9

/-- One access from cycle 0 on, answered in cycle `tb`, and a pause up to
    cycle `T`. -/
structure AccessRun (D : Nat) (e : Lts.Execution Machine Input) (a : Firmware.Access)
    (tb T : Nat) : Prop where
  step : ∀ k, e.states (k + 1) = (e.states k).next (e.labels k)
  prompt : CoreAndMemory.Prompt D (core_run e)
  transaction : Transaction (chip_run e) a 0 tb
  silent : ∀ j, tb < j → j < T →
    (e.labels j).s_axi.arvalid = false ∧ (e.labels j).s_axi.awvalid = false
  late : tb + pause D ≤ T

section access
variable {D : Nat} {e : Lts.Execution Machine Input} {a : Firmware.Access} {tb T : Nat}
  (h : AccessRun D e a tb T)
include h

theorem AccessRun.control_step (k : Nat) :
    (control_run e).states (k + 1) =
      ((control_run e).states k).next ((control_run e).labels k) := by
  refine CmAndCore.control_step (e := chip_run e) ?_ k
  intro k
  show (e.states (k + 1)).chip = _
  rw [h.step k]
  rfl

/-- The control module is free during the pause. -/
theorem AccessRun.free (hidle : (e.states (tb + 1)).chip.soc_control.state = .idle) {j : Nat}
    (hj : tb < j) (hjT : j ≤ T) : (e.states j).chip.soc_control.state = .idle := by
  refine Lts.stretch_induction
    (P := fun j => (e.states j).chip.soc_control.state = .idle) hj hidle ?_
  intro i hi hij hst
  obtain ⟨har, haw⟩ := h.silent i hi (by omega)
  have hstep : (e.states (i + 1)).chip.soc_control = _ := h.control_step i
  rw [hstep]
  exact SocControl.next_of_idle _ hst har haw

/-- The stall does not change during the pause. -/
theorem AccessRun.stall_kept (hidle : (e.states (tb + 1)).chip.soc_control.state = .idle)
    {j : Nat} (hj : tb < j) (hjT : j ≤ T) :
    (e.states j).chip.soc_control.pc_stall = (e.states (tb + 1)).chip.soc_control.pc_stall := by
  refine Lts.stretch_induction (P := fun j => (e.states j).chip.soc_control.pc_stall =
    (e.states (tb + 1)).chip.soc_control.pc_stall) hj rfl ?_
  intro i hi hij hst
  have hfree := h.free hidle hi (by omega)
  have hstep : (e.states (i + 1)).chip.soc_control = _ := h.control_step i
  have hkept := SocControl.pc_stall_next (c := (e.states i).chip.soc_control)
    ((control_run e).labels i) (by rw [hfree]; decide) (by rw [hfree]; decide)
  rw [hstep, ← hst]
  exact hkept

end access

/-- A write, seen from the core: it is issued in cycle `k`, and it is the only
    one up to cycle `T`. -/
structure Written (e : Lts.Execution Machine Input) (addr data : Word) (k T : Nat) : Prop where
  issues : (e.states k).chip.Issues addr data
  only : ∀ j, j < T → j ≠ k → (e.states j).chip.soc_control.state ≠ .write_issue
  before : ∀ j, j ≤ k → (e.states j).chip.soc_control.pc_stall =
    (e.states 0).chip.soc_control.pc_stall
  pulse : selector addr = SUB_SEL_CTRL → window_offset addr = CTRL_REG_STEP →
    (e.states (k + 1)).chip.soc_control.pc_stall = false
  steady : ¬ (selector addr = SUB_SEL_CTRL ∧ window_offset addr = CTRL_REG_STEP) →
    (e.states (k + 1)).chip.soc_control.pc_stall =
      SocControl.issued_stall (e.states 0).chip.soc_control.pc_stall addr
  after : ∀ j, k + 2 ≤ j → j ≤ T → (e.states j).chip.soc_control.pc_stall =
    SocControl.issued_stall (e.states 0).chip.soc_control.pc_stall addr
  free : (e.states T).chip.soc_control.state = .idle

theorem AccessRun.written {D : Nat} {e : Lts.Execution Machine Input} {addr data : Word}
    {tb T : Nat} (h : AccessRun D e (.out32 addr data) tb T) :
    ∃ k, k + 2 + pause D ≤ T ∧ Written e addr data k T := by
  have hs := h.control_step
  have hlate := h.late
  cases htrans : h.transaction with
  | @write addr data _ ta tw _ hw haddr hdata =>
    have haddr' : ((control_run e).labels ta).s_axi.awaddr = addr := haddr
    have hta := hw.address.1
    have htw := hw.data.1
    have htb := hw.answer_after hs
    have hidle : (e.states (tb + 1)).chip.soc_control.state = .idle := hw.idle_after hs
    have hissued := hw.stall_issued hs
    rw [haddr'] at hissued
    refine ⟨tw + 1, by omega, ?_, ?_, ?_, ?_, ?_, ?_, ?_⟩
    · obtain ⟨hP, hlatched, hldata, hlstrb⟩ := hw.issue hs
      rw [haddr'] at hlatched
      exact ⟨hP.state, hlatched, hldata.trans hdata.1, hlstrb.trans hdata.2⟩
    · intro j hjT hne
      by_cases hj : j ≤ tb
      · exact hw.not_issue hs (Nat.zero_le j) hj hne
      · rw [h.free hidle (by omega) (by omega)]
        decide
    · intro j hj
      exact hw.stall_before hs (Nat.zero_le j) hj
    · intro hsel hoff
      rw [hsel, hoff] at hissued
      exact hissued
    · intro hstep
      refine hissued.trans ?_
      unfold SocControl.issued_stall
      by_cases hc : selector addr = SUB_SEL_CTRL
      · rw [if_pos hc, if_pos hc, if_neg (fun hoff => hstep ⟨hc, hoff⟩),
          if_neg (fun hoff => hstep ⟨hc, hoff⟩)]
        rfl
      · rw [if_neg hc, if_neg hc]
        rfl
    · intro j hj hjT
      by_cases hjb : j ≤ tb
      · have hafter := hw.stall_after hs (j := j) (by omega) (by omega)
        rw [haddr'] at hafter
        exact hafter
      · have hafter := hw.stall_after hs (j := tb + 1) (by omega) (Nat.le_refl _)
        rw [haddr'] at hafter
        exact (h.stall_kept hidle (by omega) hjT).trans hafter
    · exact h.free hidle (by unfold pause at hlate; omega) (Nat.le_refl T)

/-- A read, seen from the core: nothing is written up to cycle `T`. -/
structure ReadOnly (e : Lts.Execution Machine Input) (T : Nat) : Prop where
  only : ∀ j, j < T → (e.states j).chip.soc_control.state ≠ .write_issue
  stall : ∀ j, j ≤ T → (e.states j).chip.soc_control.pc_stall =
    (e.states 0).chip.soc_control.pc_stall
  free : (e.states T).chip.soc_control.state = .idle

theorem AccessRun.read_only {D : Nat} {e : Lts.Execution Machine Input} {addr : Word}
    {tb T : Nat} (h : AccessRun D e (.in32 addr) tb T) : ReadOnly e T := by
  have hs := h.control_step
  have hlate := h.late
  cases htrans : h.transaction with
  | @read addr _ _ hr haddr =>
    have hidle : (e.states (tb + 1)).chip.soc_control.state = .idle := hr.idle_after hs
    refine ⟨?_, ?_, ?_⟩
    · intro j hjT
      by_cases hj : j ≤ tb
      · exact (hr.no_write hs (Nat.zero_le j) hj).1
      · rw [h.free hidle (by omega) (by omega)]
        decide
    · intro j hjT
      by_cases hj : j ≤ tb + 1
      · exact hr.stall_kept hs (Nat.zero_le j) hj
      · exact (h.stall_kept hidle (by omega) hjT).trans
          (hr.stall_kept hs (Nat.zero_le _) (Nat.le_refl _))
    · exact h.free hidle (by unfold pause at hlate; omega) (Nat.le_refl T)

/-- The value of a read is the one in the cycle after its address. -/
theorem AccessRun.value {D : Nat} {e : Lts.Execution Machine Input} {addr : Word} {tb T : Nat}
    (h : AccessRun D e (.in32 addr) tb T) (hans : SocControl.answered_read addr) :
    (e.states tb).chip.s_axi.rdata =
      if selector addr = SUB_SEL_CTRL then
        SocControl.control_value ((control_run e).states 1) ((control_run e).labels 1)
          (window_offset addr)
      else (e.states 1).chip.cpu.register_file.read (SocControl.register_field addr) := by
  have hs := h.control_step
  have hchip : ∀ k, (chip_run e).states (k + 1) =
      ((chip_run e).states k).next ((chip_run e).labels k) := by
    intro k
    show (e.states (k + 1)).chip = _
    rw [h.step k]
    rfl
  cases htrans : h.transaction with
  | @read addr _ _ hr haddr =>
    have haddr' : ((control_run e).labels 0).s_axi.araddr = addr := haddr
    have hokay := (hr.answered hs).1.mpr (haddr'.symm ▸ hans)
    have hval := SocControl.read_data_sampled hs (CmAndCore.register_file_attached hchip) hr hokay
    rw [haddr'] at hval
    exact hval

end Machine

end RiscvWorker
