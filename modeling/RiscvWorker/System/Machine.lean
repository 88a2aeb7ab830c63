import RiscvWorker.System.DebugPort
import RiscvWorker.System.Refinement
import RiscvWorker.System.Progress

/-! # The whole machine

  `cm_and_core` between a master on the control port and a memory that
  answers with arbitrary delays. A run of the machine is at the same time a
  run of the control module, of the chip and of the core with its memory, so
  the results about these carry over.

  The laws of this module count events. An instruction that is released is
  fetched once and retires once: up to the one instruction in flight the
  three counts agree in every cycle of every run.
-/

namespace RiscvWorker

open AxiLite (Master Slave MemorySlave)
open ByteMemory
open Rv32i (ArchState)

/-- The registers of `cm_and_core` and the state of the memory. -/
structure Machine where
  chip : CmAndCore
  memory : MemorySlave

namespace Machine

/-- The inputs of one cycle: the master on the control port, and what the
    memory decides. -/
structure Input where
  s_axi : Master
  choice : MemorySlave.Choice
  deriving DecidableEq, Repr

/-- After reset, with a program in memory. -/
def boot (program : Memory) : Machine where
  chip := CmAndCore.reset
  memory := MemorySlave.idle program

variable (s : Machine) (i : Input)

def chip_input : CmAndCore.Input where
  s_axi := i.s_axi
  m_axi := s.memory.port i.choice

/-- What the core drives on the memory port. -/
def m_axi : Master := s.chip.m_axi (s.chip_input i)

/-- One clock edge. -/
def next : Machine where
  chip := s.chip.next (s.chip_input i)
  memory := s.memory.next i.choice (s.m_axi i)

/-- The machine with a memory that initially holds `program`. -/
def system (program : Memory) : Lts.System Machine Input where
  init s := s = boot program
  step s i s' := s' = s.next i

/-- The architectural state. -/
def arch : ArchState := s.chip.cpu.arch s.memory.mem

/-! ### Projections -/

section projections
variable (e : Lts.Execution Machine Input)

/-- The run of the chip within a run. -/
def chip_run : Lts.Execution CmAndCore CmAndCore.Input where
  states k := (e.states k).chip
  labels k := (e.states k).chip_input (e.labels k)

/-- The run of the core and the memory within a run. -/
def core_run : Lts.Execution CoreAndMemory CoreAndMemory.Input where
  states k := ⟨(e.states k).chip.cpu, (e.states k).memory⟩
  labels k := ⟨(e.states k).chip.cm, (e.labels k).choice⟩

/-- The run of the control module within a run. -/
def control_run : Lts.Execution SocControl SocControl.Input := CmAndCore.control (chip_run e)

end projections

variable {program : Memory} {e : Lts.Execution Machine Input}

theorem chip_run_valid (hv : (system program).valid_exec e) :
    CmAndCore.system.valid_exec (chip_run e) := by
  refine ⟨?_, ?_⟩
  · show (e.states 0).chip = CmAndCore.reset
    have hinit : e.states 0 = boot program := hv.1
    rw [hinit]
    rfl
  · intro k
    show (e.states (k + 1)).chip = _
    have hstep : e.states (k + 1) = (e.states k).next (e.labels k) := hv.2 k
    rw [hstep]
    rfl

theorem core_run_valid (hv : (system program).valid_exec e) :
    (CoreAndMemory.system program).valid_exec (core_run e) := by
  refine ⟨?_, ?_⟩
  · have hinit : e.states 0 = boot program := hv.1
    show (⟨(e.states 0).chip.cpu, (e.states 0).memory⟩ : CoreAndMemory) = _
    rw [hinit]
    rfl
  · intro k
    have hstep : e.states (k + 1) = (e.states k).next (e.labels k) := hv.2 k
    show (⟨(e.states (k + 1)).chip.cpu, (e.states (k + 1)).memory⟩ : CoreAndMemory) = _
    rw [hstep]
    rfl

theorem control_run_step (hv : (system program).valid_exec e) (k : Nat) :
    (control_run e).states (k + 1) =
      ((control_run e).states k).next ((control_run e).labels k) :=
  CmAndCore.control_step (chip_run_valid hv).2 k

/-- While the master is idle, no write is issued. -/
theorem idle_while (hv : (system program).valid_exec e) {n : Nat}
    (hidle : (e.states n).chip.soc_control.state = .idle)
    {j : Nat} (hj : n ≤ j) (hdone : ∀ i, n ≤ i → i < j → (e.labels i).s_axi = .idle) :
    (e.states j).chip.soc_control.state = .idle := by
  refine SocControl.stays_idle (control_run_step hv) hidle hj ?_
  intro i hi hij
  have hmaster : ((control_run e).labels i).s_axi = .idle := hdone i hi hij
  rw [hmaster]
  exact ⟨rfl, rfl⟩

/-! ### Events -/

/-- The NEXT_PC transaction. -/
def retires (s : Machine) (_ : Input) : Bool := s.chip.cpu.next_pc_transaction

/-- The stall is low while a PC waits for it. -/
def releases (s : Machine) (_ : Input) : Bool :=
  s.chip.cpu.pc_release_pending && !s.chip.cpu.pc_stall_released && !s.chip.soc_control.pc_stall

/-- The memory accepts the address of an instruction. -/
def fetches (s : Machine) (i : Input) : Bool := s.chip.fetches (s.chip_input i)

/-- A run of the machine with the phase of each cycle. -/
structure Phased (e : Lts.Execution Machine Input) (ph : Nat → Phase) : Prop where
  core : CoreAndMemory.PhaseRun (core_run e) ph
  step : ∀ k, e.states (k + 1) = (e.states k).next (e.labels k)
  first : ph 0 = .waiting

theorem phased (hv : (system program).valid_exec e) : ∃ ph, Phased e ph := by
  obtain ⟨ph, hcore, hfirst⟩ := CoreAndMemory.phase_run (core_run_valid hv)
  exact ⟨ph, hcore, hv.2, hfirst⟩

section phased
variable {ph : Nat → Phase} (hp : Phased e ph)
include hp

theorem Phased.at_phase (k : Nat) : (e.states k).chip.cpu.At (ph k) := (hp.core.linked k).at_phase

theorem Phased.drained_iff (k : Nat) :
    (e.states k).chip.Drained ↔
      ph k = .waiting ∧ (e.states k).chip.soc_control.pc_stall = true :=
  CmAndCore.drained_iff (hp.at_phase k)

theorem Phased.retires_iff (k : Nat) :
    retires (e.states k) (e.labels k) = true ↔ ph k = .next_pc := by
  unfold retires
  rw [(hp.at_phase k).next_pc_transaction, beq_iff_eq]

theorem Phased.releases_iff (k : Nat) :
    releases (e.states k) (e.labels k) = true ↔
      ph k = .waiting ∧ (e.states k).chip.soc_control.pc_stall = false := by
  obtain ⟨hpend, hrel, -⟩ := (hp.at_phase k).fields
  unfold releases
  rw [hpend, hrel]
  cases ph k <;> simp [Phase.flags]

theorem Phased.fetches_iff (k : Nat) :
    fetches (e.states k) (e.labels k) = true ↔
      ((ph k = .waiting ∧ (e.states k).chip.soc_control.pc_stall = false) ∨ ph k = .fetch_addr) ∧
        (e.labels k).choice.arready = true :=
  CmAndCore.fetches_iff (hp.at_phase k) _

/-- One clock edge of the token. -/
theorem Phased.next (k : Nat) :
    ph (k + 1) = (ph k).next (e.states k).chip.cpu.decoded
      ((e.states k).chip.cpu_input ((e.states k).chip_input (e.labels k))) := hp.core.next k

/-- Every release retires: the two counts differ by the instruction in
    flight. -/
theorem Phased.count_releases (k : Nat) :
    e.count releases k = e.count retires k + (ph k != .waiting).toNat := by
  refine e.count_in_flight releases retires (fun k => ph k != .waiting) ?_ ?_ ?_ ?_ k
  · rw [hp.first]
    rfl
  · intro k hrel
    obtain ⟨hw, hst⟩ := (hp.releases_iff k).mp hrel
    have hst' : ((e.states k).chip.cpu_input
        ((e.states k).chip_input (e.labels k))).cm.cm_pc_stall = false := hst
    refine ⟨by rw [hw]; rfl, ?_⟩
    rw [hp.next k, hw]
    simp only [Phase.next, hst', Bool.false_eq_true, if_false]
    split <;> rfl
  · intro k hret
    have hn := (hp.retires_iff k).mp hret
    refine ⟨by rw [hn]; rfl, ?_⟩
    rw [hp.next k, hn]
    rfl
  · intro k hrel hret
    have hn : ph k ≠ .next_pc := by
      intro hc
      rw [(hp.retires_iff k).mpr hc] at hret
      simp at hret
    by_cases hw : ph k = .waiting
    · -- the stall keeps a waiting PC
      have hst : (e.states k).chip.soc_control.pc_stall = true := by
        apply Bool.eq_true_of_not_eq_false
        intro hc
        rw [(hp.releases_iff k).mpr ⟨hw, hc⟩] at hrel
        simp at hrel
      rw [hp.next k, hw]
      show (Phase.next _ _ .waiting != Phase.waiting) = _
      rw [show Phase.next (e.states k).chip.cpu.decoded ((e.states k).chip.cpu_input
        ((e.states k).chip_input (e.labels k))) .waiting = .waiting from if_pos hst]
    · -- an instruction in flight stays in flight
      have hw' : ph (k + 1) ≠ .waiting := by
        rw [hp.next k]
        exact Phase.next_ne_waiting hw hn
      rw [bne_iff_ne.mpr hw, bne_iff_ne.mpr hw']

/-- Every instruction is fetched once: the counts differ by the instruction
    whose fetch has been accepted. -/
theorem Phased.count_fetches (k : Nat) :
    e.count fetches k = e.count retires k + (!(ph k).is_pending).toNat := by
  refine e.count_in_flight fetches retires (fun k => !(ph k).is_pending) ?_ ?_ ?_ ?_ k
  · rw [hp.first]
    rfl
  · intro k hfetch
    obtain ⟨hp', hready⟩ := (hp.fetches_iff k).mp hfetch
    have hready' : ((e.states k).chip.cpu_input
        ((e.states k).chip_input (e.labels k))).m_axi.arready = true := hready
    -- the fetch is accepted at once, or after waiting for ARREADY
    rcases hp' with ⟨hw, hst⟩ | hf
    · have hst' : ((e.states k).chip.cpu_input
          ((e.states k).chip_input (e.labels k))).cm.cm_pc_stall = false := hst
      refine ⟨by rw [hw]; rfl, ?_⟩
      rw [hp.next k, hw]
      simp [Phase.next, hst', hready', Phase.is_pending]
    · refine ⟨by rw [hf]; rfl, ?_⟩
      rw [hp.next k, hf]
      simp [Phase.next, hready', Phase.is_pending]
  · intro k hret
    have hn := (hp.retires_iff k).mp hret
    refine ⟨by rw [hn]; rfl, ?_⟩
    rw [hp.next k, hn]
    rfl
  · intro k hfetch hret
    have hnext := hp.next k
    have hn : ph k ≠ .next_pc := by
      intro hc
      rw [(hp.retires_iff k).mpr hc] at hret
      simp at hret
    have hno := mt (hp.fetches_iff k).mpr (by rw [hfetch]; decide)
    have hst : ((e.states k).chip.cpu_input
        ((e.states k).chip_input (e.labels k))).cm.cm_pc_stall =
          (e.states k).chip.soc_control.pc_stall := rfl
    have hready : ((e.states k).chip.cpu_input
        ((e.states k).chip_input (e.labels k))).m_axi.arready = (e.labels k).choice.arready := rfl
    rw [hnext]
    -- an instruction becomes or ceases to be fetched by these two events only
    cases hq : ph k <;> simp only [Phase.next, hst, hready] <;> (repeat' split) <;>
      simp_all [Phase.is_pending]

/-! ### The stalled and the drained machine -/

/-- The stall stays high until the next START or STEP. -/
theorem Phased.stays_stalled {t j : Nat} (hst : (e.states t).chip.soc_control.pc_stall = true)
    (hj : t ≤ j)
    (hno : ∀ k, t ≤ k → k < j → (e.states k).chip.soc_control.releasing = false) :
    (e.states j).chip.soc_control.pc_stall = true := by
  refine Lts.stretch_induction
    (P := fun j => (e.states j).chip.soc_control.pc_stall = true) hj hst ?_
  intro k hk hkj hstk
  rw [hp.step k]
  exact SocControl.stall_kept _ hstk (hno k hk hkj)

/-- A drained machine stays drained until the next START or STEP. -/
theorem Phased.stays_drained {t t' : Nat} (hd : (e.states t).chip.Drained)
    (hno : ∀ j, t ≤ j → j < t' → (e.states j).chip.soc_control.releasing = false)
    {j : Nat} (hj : t ≤ j) (hjt : j ≤ t') : (e.states j).chip.Drained := by
  refine Lts.stretch_induction (P := fun j => (e.states j).chip.Drained) hj hd ?_
  intro k hk hkj hdk
  obtain ⟨hw, hst⟩ := (hp.drained_iff k).mp hdk
  have hat : (e.states k).chip.cpu.At .waiting := hw ▸ hp.at_phase k
  have hnext : (e.states (k + 1)).chip =
      (e.states k).chip.next ((e.states k).chip_input (e.labels k)) := by
    rw [hp.step k]
    rfl
  rw [hnext]
  refine (CmAndCore.drained_iff (CmAndCore.halted_step hat hst _).1).mpr ⟨rfl, ?_⟩
  exact SocControl.stall_kept _ hst (hno k hk (by omega))

/-- Nothing retires while the machine is drained. -/
theorem Phased.count_retires_drained {t t' : Nat} (htt : t ≤ t')
    (hd : ∀ j, t ≤ j → j < t' → (e.states j).chip.Drained) :
    e.count retires t' = e.count retires t := by
  apply e.count_eq_of_forall_false retires htt
  intro j hj hjt
  apply eq_false_of_ne_true
  intro hret
  have hw := ((hp.drained_iff j).mp (hd j hj hjt)).1
  rw [(hp.retires_iff j).mp hret] at hw
  simp at hw

/-- The core with its memory tracks its own architectural state while a PC
    waits. -/
theorem Phased.tracks_waiting {t : Nat} (hw : ph t = .waiting) :
    CoreAndMemory.Tracks ((core_run e).states t) .waiting (e.states t).arch := by
  have hlinked : CoreAndMemory.Linked ((core_run e).states t) .waiting := hw ▸ hp.core.linked t
  exact CoreAndMemory.tracks_arch hlinked.at_phase hlinked.idle

/-- A drained machine without debug writes keeps its architectural state. -/
theorem Phased.frozen {t t' : Nat} (htt : t ≤ t')
    (hd : ∀ j, t ≤ j → j ≤ t' → (e.states j).chip.Drained)
    (hquiet : ∀ j, t ≤ j → j < t' → (e.states j).chip.cm.quiet) :
    (e.states t').arch = (e.states t).arch := by
  refine Lts.stretch_induction (P := fun j => (e.states j).arch = (e.states t).arch) htt rfl ?_
  intro k hk hkt heq
  have hw := ((hp.drained_iff k).mp (hd k hk (by omega))).1
  have hw' := ((hp.drained_iff (k + 1)).mp (hd (k + 1) (by omega) hkt)).1
  -- the machine tracks its own state over a stuttering step
  have htracks := (hp.tracks_waiting hw).stutter (i := (core_run e).labels k) (hquiet k hk hkt)
    (by decide)
  rw [← hp.core.step k] at htracks
  obtain hphase := htracks.at_phase.unique (hw' ▸ hp.at_phase (k + 1))
  rw [hphase] at htracks
  rw [← heq]
  exact htracks.arch_eq

end phased

end Machine

end RiscvWorker
