import RiscvWorker.System.Machine
import RiscvWorker.System.IsaRun

/-! # Single steps

  A write to STEP lowers the stall for one cycle. If a PC waits in that cycle,
  one instruction is released: it is fetched, retires, and leaves the machine
  drained, however long the memory takes. If no PC waits, the pulse is gone:
  the control module answers OKAY all the same.
-/

namespace RiscvWorker

open AxiLite (Master Slave MemorySlave b_handshake)
open ByteMemory
open Rv32i (ArchState)

namespace Machine

variable {program : Memory} {e : Lts.Execution Machine Input}

/-! ### One released instruction -/

section released
variable {ph : Nat → Phase} (hp : Phased e ph)
include hp

/-- The first cycle after a release. -/
theorem Phased.leaves {k : Nat} (hw : ph k = .waiting)
    (hst : (e.states k).chip.soc_control.pc_stall = false) : ph (k + 1) ≠ .waiting := by
  have hst' : ((e.states k).chip.cpu_input
      ((e.states k).chip_input (e.labels k))).cm.cm_pc_stall = false := hst
  rw [hp.next k, hw]
  simp only [Phase.next, hst', Bool.false_eq_true, if_false]
  split <;> decide

/-- Quiet cycles before NEXT_PC keep the architectural state. -/
theorem Phased.tracks_until {k j : Nat} (hkj : k ≤ j) (hw : ph k = .waiting)
    (hquiet : ∀ i, k ≤ i → i < j → (e.states i).chip.cm.quiet)
    (hnot : ∀ i, k ≤ i → i < j → ph i ≠ .next_pc) :
    CoreAndMemory.Tracks ((core_run e).states j) (ph j) (e.states k).arch := by
  refine Lts.stretch_induction (P := fun j =>
    CoreAndMemory.Tracks ((core_run e).states j) (ph j) (e.states k).arch) hkj ?_ ?_
  · rw [hw]
    exact hp.tracks_waiting hw
  · intro i hki hij htracks
    have hnext := htracks.stutter (i := (core_run e).labels i) (hquiet i hki hij) (hnot i hki hij)
    rw [← hp.core.step i, ← hp.core.next i] at hnext
    exact hnext

/-- A released instruction retires once and makes one step of the reference
    semantics, if no debug write disturbs it. -/
theorem Phased.one_instruction (hresp : CoreAndMemory.Responsive (core_run e)) {k : Nat}
    (hw : ph k = .waiting) (hst : (e.states k).chip.soc_control.pc_stall = false)
    (hquiet : ∀ j, k ≤ j → (∀ i, k < i → i ≤ j → ph i ≠ .waiting) →
      (e.states j).chip.cm.quiet) :
    ∃ t, k + 1 < t ∧ ph t = .waiting ∧ (∀ i, k < i → i < t → ph i ≠ .waiting) ∧
      e.count retires t = e.count retires k + 1 ∧
      ∀ A', Rv32i.step (e.states k).arch = some A' → (e.states t).arch = A' := by
  -- NEXT_PC comes in cycle `j`; until then the cycles stutter
  obtain ⟨j, hkj, hn, hbefore⟩ := hp.core.retires hresp (hp.leaves hw hst)
  have hbusy : ∀ i, k < i → i ≤ j → ph i ≠ .waiting := by
    intro i hki hij
    by_cases heq : i = j
    · rw [heq, hn]
      decide
    · exact (hbefore i (by omega) (by omega)).1
  have hnot : ∀ i, k ≤ i → i < j → ph i ≠ .next_pc := by
    intro i hki hij
    by_cases heq : i = k
    · rw [heq, hw]
      decide
    · exact (hbefore i (by omega) hij).2
  have hquiet' : ∀ i, k ≤ i → i ≤ j → (e.states i).chip.cm.quiet := by
    intro i hki hij
    exact hquiet i hki (fun i' hki' hi' => hbusy i' hki' (by omega))
  have hw' : ph (j + 1) = .waiting := by
    rw [hp.next j, hn]
    rfl
  refine ⟨j + 1, by omega, hw', fun i hki hij => hbusy i hki (by omega), ?_, ?_⟩
  · have hnone : e.count retires j = e.count retires k := by
      apply e.count_eq_of_forall_false retires (by omega)
      intro i hki hij
      apply eq_false_of_ne_true
      intro hret
      exact hnot i hki hij ((hp.retires_iff i).mp hret)
    rw [e.count_succ_of_true retires ((hp.retires_iff j).mpr hn), hnone]
  · intro A' hA'
    have htracks := hp.tracks_until (by omega) hw
      (fun i hki hij => hquiet' i hki (by omega)) hnot
    rw [hn] at htracks
    have hretired := htracks.retire (i := (core_run e).labels j)
      (hquiet' j (by omega) (Nat.le_refl j)) hA'
    rw [← hp.core.step j] at hretired
    exact hretired.arch_eq

end released

/-! ### STEP on a drained machine -/

/-- A write to STEP writes nothing else. -/
theorem quiet_of_step {s : CmAndCore} {addr : Word}
    (ha : s.soc_control.latched_address = addr.extractLsb' 0 16)
    (hsel : selector addr = SUB_SEL_CTRL) (hoff : window_offset addr = CTRL_REG_STEP) :
    s.cm.quiet := by
  by_cases hst : s.soc_control.state = .write_issue
  · refine ⟨?_, ?_, ?_⟩
    · apply eq_false_of_ne_true
      intro hc
      have hpc := ((SocControl.issue_pc_write_enable hst ha).mp hc).2
      rw [hoff] at hpc
      simp at hpc
    · apply eq_false_of_ne_true
      intro hc
      have hreg := ((SocControl.issue_regfile_write_enable hst ha).mp hc).2.1
      rw [hsel] at hreg
      simp at hreg
    · apply eq_false_of_ne_true
      intro hc
      have hfault := ((SocControl.issue_regfile_fault_enable hst ha).mp hc).2.1
      rw [hsel] at hfault
      simp at hfault
  · exact CmAndCore.quiet_of_not_issue hst

/-- The pulse of a STEP: the stall is low in the second cycle after its data,
    and high again in the third. -/
theorem step_pulse (hv : (system program).valid_exec e) {t ta tw tb : Nat}
    (h : SocControl.WriteTransaction (control_run e) t ta tw tb)
    (hsel : selector (e.labels ta).s_axi.awaddr = SUB_SEL_CTRL)
    (hoff : window_offset (e.labels ta).s_axi.awaddr = CTRL_REG_STEP) :
    (e.states (tw + 2)).chip.soc_control.pc_stall = false ∧
      (e.states (tw + 3)).chip.soc_control.pc_stall = true := by
  have hs := control_run_step hv
  have haddr : ((control_run e).labels ta).s_axi.awaddr = (e.labels ta).s_axi.awaddr := rfl
  constructor
  · have hissued := h.stall_issued hs
    rw [haddr, hsel, hoff] at hissued
    exact hissued
  · have hafter := h.stall_after hs (j := tw + 3) (Nat.le_refl _)
      (Nat.le_succ_of_le (h.answer_after hs))
    rw [haddr, SocControl.issued_stall, hsel, hoff] at hafter
    exact hafter

/-- STEP executes exactly one instruction. The machine is drained in cycle
    `t₀`, and the next write that is issued is one to STEP, in cycle `tw + 1`;
    reads are arbitrary. Then the machine drains again, and up to that cycle
    it has fetched one instruction, retired one, and made one step of the
    reference semantics; it stays drained until the next START or STEP. -/
theorem step_executes_one (hv : (system program).valid_exec e)
    (hresp : CoreAndMemory.Responsive (core_run e)) {t₀ t ta tw tb : Nat}
    (hd : (e.states t₀).chip.Drained)
    (h : SocControl.WriteTransaction (control_run e) t ta tw tb) (ht : t₀ ≤ tw + 1)
    (hsel : selector (e.labels ta).s_axi.awaddr = SUB_SEL_CTRL)
    (hoff : window_offset (e.labels ta).s_axi.awaddr = CTRL_REG_STEP)
    (hother : ∀ j, t₀ ≤ j → j ≠ tw + 1 → (e.states j).chip.soc_control.state = .write_issue →
      ∃ k, tw + 1 < k ∧ k ≤ j ∧ (e.states k).chip.Drained) :
    ∃ t₂, tw + 1 < t₂ ∧ (e.states t₂).chip.Drained ∧
      (∀ j, tw + 1 < j → j < t₂ → ¬ (e.states j).chip.Drained) ∧
      e.count fetches t₂ = e.count fetches t₀ + 1 ∧
      e.count retires t₂ = e.count retires t₀ + 1 ∧
      (∀ A', Rv32i.step (e.states t₀).arch = some A' → (e.states t₂).arch = A') ∧
      ∀ j, t₂ ≤ j →
        (∀ k, t₂ ≤ k → k < j → (e.states k).chip.soc_control.releasing = false) →
        (e.states j).chip.Drained := by
  obtain ⟨ph, hp⟩ := phased hv
  have hs := control_run_step hv
  obtain ⟨hP, haddr, -, -⟩ := h.issue hs
  have haddr' : ((control_run e).labels ta).s_axi.awaddr = (e.labels ta).s_axi.awaddr := rfl
  rw [haddr'] at haddr
  -- nothing is issued before the STEP, so the machine is still drained then
  have hbefore : ∀ j, t₀ ≤ j → j < tw + 1 →
      (e.states j).chip.soc_control.state ≠ .write_issue := by
    intro j hj hjt hissue
    obtain ⟨k, hk, hkj, -⟩ := hother j hj (by omega) hissue
    omega
  have hdrained : ∀ j, t₀ ≤ j → j ≤ tw + 1 → (e.states j).chip.Drained := by
    intro j hj hjt
    exact hp.stays_drained hd
      (fun i hi hit => SocControl.releasing_of_not_issue (hbefore i hi hit)) hj hjt
  have hquiet : ∀ j, t₀ ≤ j → j ≤ tw + 1 → (e.states j).chip.cm.quiet := by
    intro j hj hjt
    by_cases heq : j = tw + 1
    · rw [heq]
      exact quiet_of_step haddr hsel hoff
    · exact CmAndCore.quiet_of_not_issue (hbefore j hj (by omega))
  obtain ⟨hw1, hst1⟩ := (hp.drained_iff (tw + 1)).mp (hdrained (tw + 1) ht (Nat.le_refl _))
  obtain ⟨hlow, hhigh⟩ := step_pulse hv h hsel hoff
  have htracks := hp.tracks_until (k := t₀) (j := tw + 2) (by omega)
    ((hp.drained_iff t₀).mp hd).1 (fun i hi hit => hquiet i hi (by omega)) (by
      intro i hi hit hn
      have hw := ((hp.drained_iff i).mp (hdrained i hi (by omega))).1
      rw [hn] at hw
      exact absurd hw (by decide))
  have hw2 : ph (tw + 2) = .waiting := by
    rw [hp.next (tw + 1), hw1]
    exact if_pos hst1
  rw [hw2] at htracks
  have harch : (e.states (tw + 2)).arch = (e.states t₀).arch := htracks.arch_eq
  -- the released instruction runs undisturbed
  have hnone : ∀ j, tw + 2 ≤ j → (∀ i, tw + 2 < i → i ≤ j → ph i ≠ .waiting) →
      (e.states j).chip.soc_control.state ≠ .write_issue := by
    intro j hj hbusy hissue
    obtain ⟨k, hk, hkj, hdk⟩ := hother j (by omega) (by omega) hissue
    obtain ⟨hwk, hstk⟩ := (hp.drained_iff k).mp hdk
    by_cases heq : k = tw + 2
    · rw [heq, hlow] at hstk
      simp at hstk
    · exact hbusy k (by omega) hkj hwk
  obtain ⟨t₂, ht₂, hw₂, hbusy, hretired, hstep⟩ := hp.one_instruction hresp hw2 hlow
    (fun j hj hb => CmAndCore.quiet_of_not_issue (hnone j hj hb))
  have hst₂ : (e.states t₂).chip.soc_control.pc_stall = true := by
    apply hp.stays_stalled hhigh (by omega)
    intro j hj hjt
    exact SocControl.releasing_of_not_issue
      (hnone j (by omega) (fun i hi hij => hbusy i hi (by omega)))
  have hd₂ : (e.states t₂).chip.Drained := (hp.drained_iff t₂).mpr ⟨hw₂, hst₂⟩
  have hcount : e.count retires (tw + 2) = e.count retires t₀ :=
    hp.count_retires_drained (by omega) (fun j hj hjt => hdrained j hj (by omega))
  have hcount₂ : e.count retires t₂ = e.count retires t₀ + 1 := by
    rw [hretired, hcount]
  refine ⟨t₂, by omega, hd₂, ?_, ?_, hcount₂, ?_, ?_⟩
  · intro j hj hjt hdj
    obtain ⟨hwj, hstj⟩ := (hp.drained_iff j).mp hdj
    by_cases heq : j = tw + 2
    · rw [heq, hlow] at hstj
      simp at hstj
    · exact hbusy j (by omega) hjt hwj
  · rw [hp.count_fetches, hp.count_fetches, hw₂, ((hp.drained_iff t₀).mp hd).1, hcount₂]
    rfl
  · intro A' hA'
    exact hstep A' (by rw [harch]; exact hA')
  · intro j hj hno
    exact hp.stays_drained hd₂ hno hj (Nat.le_refl j)

/-- One STEP after reset, on a memory that accepts the fetch after the pulse. -/
def step_run : Lts.Execution Machine Input :=
  .of_inputs next (boot CoreAndMemory.counter) fun k =>
    { s_axi := if k < 6 then .writing 0x6000100C#32 1#32 0b1111#4 else .idle
      choice := MemorySlave.late 9 k }

theorem step_run_valid : (system CoreAndMemory.counter).valid_exec step_run := ⟨rfl, fun _ => rfl⟩

theorem step_run_transaction : SocControl.WriteTransaction (control_run step_run) 0 1 2 5 :=
  .of_fast_master (control_run_step step_run_valid) (by decide)
    (fun _ _ hj => if_pos (by omega))

/-- The STEP is the only write of this run. -/
theorem step_run_issue {j : Nat}
    (h : (step_run.states j).chip.soc_control.state = .write_issue) : j = 3 := by
  have hs := control_run_step step_run_valid
  by_cases hj : j ≤ 5
  · by_contra hne
    exact step_run_transaction.not_issue hs (Nat.zero_le j) hj hne h
  · rw [idle_while step_run_valid (n := 6) (step_run_transaction.idle_after hs) (by omega)
      (fun i hi _ => if_neg (by omega))] at h
    simp at h

theorem step_run_responsive : CoreAndMemory.Responsive (core_run step_run) :=
  (MemorySlave.eager_again_prompt (MemorySlave.late_again 9) fun _ => rfl).responsive

/-- The stall is high again when the load is fetched, and it is executed. -/
theorem step_executes_one_load :
    (step_run.states 5).chip.soc_control.pc_stall = true ∧ step_run.count fetches 9 = 0 ∧
    ∃ t, (step_run.states t).chip.Drained ∧ step_run.count fetches t = 1 ∧
      step_run.count retires t = 1 ∧ (step_run.states t).arch.pc = 0x00001004#32 ∧
      (step_run.states t).arch.reg 5#5 = 41#32 := by
  have hd₀ : (step_run.states 0).chip.Drained :=
    ⟨by decide, by decide, by decide, by decide⟩
  obtain ⟨t, -, hd, -, hfetch, hret, harch, -⟩ :=
    step_executes_one step_run_valid step_run_responsive hd₀ step_run_transaction (by decide)
      (by decide) (by decide) (fun j _ hne hissue => absurd (step_run_issue hissue) hne)
  refine ⟨by decide +kernel, by decide +kernel, t, hd, hfetch, hret, ?_⟩
  have hstart : (step_run.states 0).arch = boot_state CoreAndMemory.counter :=
    (CoreAndMemory.Tracks.boot CoreAndMemory.counter).arch_eq
  have hstep : Rv32i.step (boot_state CoreAndMemory.counter) = some (CoreAndMemory.counted 1) :=
    CoreAndMemory.counter_steps (n := 1) (by decide)
  rw [harch _ (hstart.symm ▸ hstep)]
  decide +kernel

/-! ### Only STEPs -/

/-- An answer OKAY to a write is taken by the master. -/
def write_okay (s : Machine) (i : Input) : Bool :=
  b_handshake i.s_axi s.chip.s_axi && s.chip.s_axi.bresp == AXI_RESP_OKAY

/-- The answer to a write is on offer. -/
def write_offered (s : Machine) : Bool := s.chip.soc_control.state == .write_resp

/-- The cycle after WRITE_ISSUE, in which a STEP holds the stall low. -/
def pulses (s : Machine) (_ : Input) : Bool := s.chip.soc_control.state == .write_wait_done

/-- A pulse that finds no waiting PC: an instruction is still in flight. -/
def lost (s : Machine) (i : Input) : Bool :=
  s.pulses i && !(s.chip.cpu.pc_release_pending && !s.chip.cpu.pc_stall_released)

end Machine

/-- The write issued in this cycle is one to STEP with a full strobe. -/
structure SocControl.IssuesStep (c : SocControl) : Prop where
  selected : c.control_selected = true
  addr : c.sub_addr = CTRL_REG_STEP
  strobe : c.write_strobe_full = true

/-- The control module when only STEPs are written: the stall is low in the
    cycle after WRITE_ISSUE and in no other, and every write is accepted. -/
structure SocControl.StepOnly (c : SocControl) : Prop where
  stall : c.pc_stall = false ↔ c.state = .write_wait_done
  accepted : c.state = .write_wait_done → c.IssuesStep ∧ c.control_address_valid = true
  okay : c.state = .write_resp → c.op_successful = true

namespace SocControl

variable {c : SocControl} {i : Input}

/-- One clock edge of the control module when only STEPs are written. -/
theorem StepOnly.next (h : c.StepOnly) (hissue : c.state = .write_issue → c.IssuesStep) :
    (c.next i).StepOnly := by
  by_cases hi : c.state = .write_issue
  · obtain ⟨hsel, haddr, hstrb⟩ := hissue hi
    obtain ⟨hst, hlat, hlstrb⟩ := next_of_write_issue i hi
    have hsel' : (c.next i).control_selected = true := by
      unfold control_selected sub_selector
      rw [hlat]
      exact hsel
    have haddr' : (c.next i).sub_addr = CTRL_REG_STEP := by
      unfold sub_addr
      rw [hlat]
      exact haddr
    have hstrb' : (c.next i).write_strobe_full = true := by
      unfold write_strobe_full
      rw [hlstrb]
      exact hstrb
    -- WRITE_ISSUE of a STEP lowers the stall and marks the address as valid
    refine ⟨⟨fun _ => hst, fun _ => ?_⟩, fun _ => ⟨⟨hsel', haddr', hstrb'⟩, ?_⟩, ?_⟩
    · simp [SocControl.next, pc_stall', hi, hsel, haddr]
    · simp [SocControl.next, control_address_valid', hi, hsel, haddr]
    · intro hc
      rw [hst] at hc
      simp at hc
  by_cases hd : c.state = .write_wait_done
  · obtain ⟨⟨hsel, haddr, hstrb⟩, hcav⟩ := h.accepted hd
    have hst := next_of_write_wait_done i hd
    have hstall : (c.next i).pc_stall = true := by
      simp [SocControl.next, pc_stall', hd, hsel, haddr]
    have hok : (c.next i).op_successful = true := by
      have hctrl : c.sub_selector = SUB_SEL_CTRL := by simpa [control_selected] using hsel
      have haligned : c.sub_addr_aligned = true := by
        unfold sub_addr_aligned
        rw [haddr]
        rfl
      simp [SocControl.next, op_successful', op_done, hd, hctrl, control_op_successful,
        control_write_valid, control_read_valid, hsel, hcav, haligned, hstrb]
    refine ⟨?_, ?_, fun _ => hok⟩
    · rw [hstall, hst]
      decide
    · intro hc
      rw [hst] at hc
      simp at hc
  · -- no write is under way, or its answer is on offer
    have hstall := pc_stall_next i hi hd
    have hhigh : c.pc_stall = true := by
      apply Bool.eq_true_of_not_eq_false
      intro hc
      exact hd (h.stall.mp hc)
    have hnd : (c.next i).state ≠ .write_wait_done := by
      intro hc
      exact hi (of_next_write_wait_done i hc)
    refine ⟨?_, fun hc => absurd hc hnd, ?_⟩
    · rw [hstall, hhigh]
      simp [hnd]
    · intro hr
      have hresp : c.state = .write_resp := (of_next_write_resp i hr).resolve_left hd
      rw [(next_of_write_resp i hresp).2.1]
      exact h.okay hresp

theorem StepOnly.reset : StepOnly reset where
  stall := by decide
  accepted h := absurd h (by decide)
  okay h := absurd h (by decide)

end SocControl

namespace Machine

variable {program : Memory} {e : Lts.Execution Machine Input}

section step_only
variable (hv : (system program).valid_exec e)
  (honly : ∀ k, (e.states k).chip.soc_control.state = .write_issue →
    (e.states k).chip.soc_control.IssuesStep)
include hv honly

theorem step_only (k : Nat) : (e.states k).chip.soc_control.StepOnly := by
  have hs := control_run_step hv
  induction k with
  | zero =>
    have hinit : e.states 0 = boot program := hv.1
    rw [hinit]
    exact SocControl.StepOnly.reset
  | succ k ih =>
    have hnext : (e.states (k + 1)).chip.soc_control = _ := hs k
    rw [hnext]
    exact ih.next (honly k)

/-- Every pulse is answered OKAY. -/
theorem count_pulses (k : Nat) :
    e.count pulses k = e.count write_okay k + (e.states k).write_offered.toNat := by
  have hs := control_run_step hv
  have hnext : ∀ k, (e.states (k + 1)).chip.soc_control =
      (e.states k).chip.soc_control.next ((control_run e).labels k) := hs
  refine e.count_in_flight pulses write_okay (fun k => (e.states k).write_offered) ?_ ?_ ?_ ?_ k
  · have hinit : e.states 0 = boot program := hv.1
    show (e.states 0).write_offered = false
    rw [hinit]
    rfl
  · intro k hpulse
    have hd : (e.states k).chip.soc_control.state = .write_wait_done := by
      simpa [pulses] using hpulse
    refine ⟨by simp [write_offered, hd], ?_⟩
    show (e.states (k + 1)).write_offered = true
    unfold write_offered
    rw [hnext, SocControl.next_of_write_wait_done _ hd]
    rfl
  · intro k hokay
    obtain ⟨hb, -⟩ := Bool.and_eq_true_iff.mp hokay
    have hb' : (e.states k).chip.soc_control.state = .write_resp ∧
        (e.labels k).s_axi.bready = true := by
      simpa [b_handshake, CmAndCore.s_axi, SocControl.s_axi] using hb
    have hready : ((control_run e).labels k).s_axi.bready = true := hb'.2
    refine ⟨by simp [write_offered, hb'.1], ?_⟩
    show (e.states (k + 1)).write_offered = false
    unfold write_offered
    rw [hnext, (SocControl.next_of_write_resp _ hb'.1).1, hready]
    rfl
  · intro k hpulse hokay
    have hd : (e.states k).chip.soc_control.state ≠ .write_wait_done := by
      simpa [pulses] using hpulse
    show (e.states (k + 1)).write_offered = (e.states k).write_offered
    by_cases hr : (e.states k).chip.soc_control.state = .write_resp
    · -- the answer is OKAY, so the master has not taken it
      have hok := (step_only hv honly k).okay hr
      have hready : ((control_run e).labels k).s_axi.bready = false := by
        apply eq_false_of_ne_true
        intro hc
        have hc' : (e.labels k).s_axi.bready = true := hc
        simp [write_okay, b_handshake, CmAndCore.s_axi, SocControl.s_axi, hr, hok, hc'] at hokay
      unfold write_offered
      rw [hnext, (SocControl.next_of_write_resp _ hr).1, hready, hr]
      rfl
    · have hr' : (e.states (k + 1)).chip.soc_control.state ≠ .write_resp := by
        intro hc
        rw [hnext] at hc
        rcases SocControl.of_next_write_resp _ hc with hc' | hc'
        · exact hd hc'
        · exact hr hc'
      unfold write_offered
      rw [beq_eq_false_iff_ne.mpr hr, beq_eq_false_iff_ne.mpr hr']

/-- A pulse releases an instruction or is lost. -/
theorem count_pulses_split (k : Nat) :
    e.count pulses k = e.count releases k + e.count lost k := by
  apply e.count_split
  intro k
  have hstall := (step_only hv honly k).stall
  unfold lost pulses releases
  by_cases hd : (e.states k).chip.soc_control.state = .write_wait_done
  · rw [hstall.mpr hd, hd]
    cases (e.states k).chip.cpu.pc_release_pending <;>
      cases (e.states k).chip.cpu.pc_stall_released <;> rfl
  · have hhigh : (e.states k).chip.soc_control.pc_stall = true := by
      apply Bool.eq_true_of_not_eq_false
      intro hc
      exact hd (hstall.mp hc)
    rw [hhigh, beq_eq_false_iff_ne.mpr hd]
    simp

end step_only

/-- A STEP that is issued on a drained machine is not lost. -/
theorem Phased.not_lost {ph : Nat → Phase} (hp : Phased e ph) {j : Nat}
    (hd : (e.states j).chip.Drained) : lost (e.states (j + 1)) (e.labels (j + 1)) = false := by
  obtain ⟨hw, hst⟩ := (hp.drained_iff j).mp hd
  -- a PC still waits in the cycle of the pulse
  have hw' : ph (j + 1) = .waiting := by
    rw [hp.next j, hw]
    exact if_pos hst
  obtain ⟨hpend, hrel, -⟩ := (hp.at_phase (j + 1)).fields
  unfold lost
  rw [hpend, hrel, hw']
  exact Bool.and_false _

/-- Every acknowledged STEP has retired an instruction or was lost to one in
    flight. When only STEPs are written and the machine is drained: the STEPs
    answered OKAY, the one whose answer is on offer included, are the NEXT_PC
    transactions and the lost pulses; and no pulse is lost if every STEP is
    issued on a drained machine. -/
theorem steps_accounted (hv : (system program).valid_exec e)
    (honly : ∀ k, (e.states k).chip.soc_control.state = .write_issue →
      (e.states k).chip.soc_control.IssuesStep) {k : Nat} (hd : (e.states k).chip.Drained) :
    e.count write_okay k + (e.states k).write_offered.toNat =
      e.count retires k + e.count lost k ∧
    ((∀ j, j < k → (e.states j).chip.soc_control.state = .write_issue →
        (e.states j).chip.Drained) →
      e.count write_okay k + (e.states k).write_offered.toNat = e.count retires k) := by
  obtain ⟨ph, hp⟩ := phased hv
  have hreleases := hp.count_releases k
  rw [((hp.drained_iff k).mp hd).1] at hreleases
  have hbalance : e.count write_okay k + (e.states k).write_offered.toNat =
      e.count retires k + e.count lost k := by
    calc e.count write_okay k + (e.states k).write_offered.toNat
        = e.count pulses k := (count_pulses hv honly k).symm
      _ = e.count releases k + e.count lost k := count_pulses_split hv honly k
      _ = e.count retires k + e.count lost k := by rw [hreleases]; rfl
  refine ⟨hbalance, ?_⟩
  intro hspaced
  -- every pulse follows a WRITE_ISSUE, which found a waiting PC
  have hnone : e.count lost k = e.count lost 0 := by
    apply e.count_eq_of_forall_false lost (Nat.zero_le k)
    intro j _ hjk
    cases j with
    | zero =>
      have hinit : e.states 0 = boot program := hv.1
      rw [hinit]
      rfl
    | succ j =>
      by_cases hissue : (e.states j).chip.soc_control.state = .write_issue
      · exact hp.not_lost (hspaced j (by omega) hissue)
      · have hne : (e.states (j + 1)).chip.soc_control.state ≠ .write_wait_done := by
          intro hc
          have hnext : (e.states (j + 1)).chip.soc_control = _ := control_run_step hv j
          rw [hnext] at hc
          exact hissue (SocControl.of_next_write_wait_done _ hc)
        unfold lost pulses
        rw [beq_eq_false_iff_ne.mpr hne, Bool.false_and]
  rw [hbalance, hnone]
  rfl

/-- Two STEPs, the second while the memory is slow to accept the fetch of the
    first. -/
def two_steps_run : Lts.Execution Machine Input :=
  .of_inputs next (boot CoreAndMemory.nops) fun k =>
    { s_axi := if k < 12 then .writing 0x6000100C#32 1#32 0b1111#4 else .idle
      choice := MemorySlave.late 14 k }

theorem two_steps_run_valid : (system CoreAndMemory.nops).valid_exec two_steps_run :=
  ⟨rfl, fun _ => rfl⟩

theorem two_steps_run_first : SocControl.WriteTransaction (control_run two_steps_run) 0 1 2 5 :=
  .of_fast_master (control_run_step two_steps_run_valid) rfl
    (fun _ _ hj => if_pos (by omega))

theorem two_steps_run_second :
    SocControl.WriteTransaction (control_run two_steps_run) 6 7 8 11 :=
  have hs := control_run_step two_steps_run_valid
  .of_fast_master hs (two_steps_run_first.idle_after hs) (fun _ _ hj => if_pos (by omega))

theorem two_steps_run_issues {k : Nat}
    (h : (two_steps_run.states k).chip.soc_control.state = .write_issue) :
    (two_steps_run.states k).chip.soc_control.IssuesStep := by
  have hs := control_run_step two_steps_run_valid
  have hcases : k = 3 ∨ k = 9 := by
    by_cases hfirst : k ≤ 5
    · by_contra hne
      exact two_steps_run_first.not_issue hs (Nat.zero_le k) hfirst (by omega) h
    by_cases hsecond : k ≤ 11
    · by_contra hne
      exact two_steps_run_second.not_issue hs (by omega) hsecond (by omega) h
    · rw [idle_while two_steps_run_valid (n := 12) (two_steps_run_second.idle_after hs)
        (by omega) (fun i hi _ => if_neg (by omega))] at h
      simp at h
  rcases hcases with rfl | rfl
  · exact ⟨by decide +kernel, by decide +kernel, by decide +kernel⟩
  · exact ⟨by decide +kernel, by decide +kernel, by decide +kernel⟩

/-- Two answers and one instruction. -/
theorem two_steps_run_ends :
    (two_steps_run.states 20).chip.Drained ∧ two_steps_run.count write_okay 20 = 2 ∧
      two_steps_run.count retires 20 = 1 ∧
      (two_steps_run.states 20).chip.soc_control.state = .idle :=
  ⟨⟨by decide +kernel, by decide +kernel, by decide +kernel, by decide +kernel⟩,
    by decide +kernel, by decide +kernel, by decide +kernel⟩

/-- A single STEP on a drained machine, and two STEPs of which the second is
    lost. -/
theorem steps_accounted_two_steps :
    (step_run.count write_okay 18 = 1 ∧ step_run.count retires 18 = 1) ∧
    two_steps_run.count write_okay 20 = 2 ∧ two_steps_run.count retires 20 = 1 ∧
      two_steps_run.count lost 20 = 1 := by
  constructor
  · have hd : (step_run.states 18).chip.Drained :=
      ⟨by decide +kernel, by decide +kernel, by decide +kernel, by decide +kernel⟩
    have honly : ∀ k, (step_run.states k).chip.soc_control.state = .write_issue →
        (step_run.states k).chip.soc_control.IssuesStep := by
      intro k hissue
      rw [step_run_issue hissue]
      exact ⟨by decide +kernel, by decide +kernel, by decide +kernel⟩
    have hspaced : ∀ j, j < 18 → (step_run.states j).chip.soc_control.state = .write_issue →
        (step_run.states j).chip.Drained := by
      intro j _ hissue
      rw [step_run_issue hissue]
      exact ⟨by decide +kernel, by decide +kernel, by decide +kernel, by decide +kernel⟩
    have hokay : step_run.count write_okay 18 = 1 := by decide +kernel
    have hoffered : (step_run.states 18).write_offered = false := by decide +kernel
    have hbalance := (steps_accounted step_run_valid honly hd).2 hspaced
    rw [hokay, hoffered] at hbalance
    exact ⟨hokay, hbalance.symm⟩
  · obtain ⟨hdrained, hokay, hretired, hidle⟩ := two_steps_run_ends
    have hoffered : (two_steps_run.states 20).write_offered = false := by
      unfold write_offered
      rw [hidle]
      rfl
    have hbalance := (steps_accounted two_steps_run_valid (fun _ => two_steps_run_issues)
      hdrained).1
    rw [hokay, hoffered, hretired] at hbalance
    have hlost : 2 = 1 + two_steps_run.count lost 20 := hbalance
    exact ⟨hokay, hretired, by omega⟩

/-- Two STEPs are acknowledged, and one instruction retires. -/
theorem step_lost :
    ∃ e : Lts.Execution Machine Input, (system CoreAndMemory.nops).valid_exec e ∧
      (∀ k, (e.states k).chip.soc_control.state = .write_issue →
        (e.states k).chip.soc_control.IssuesStep) ∧
      (e.states 20).chip.Drained ∧ (e.states 20).chip.soc_control.state = .idle ∧
      e.count write_okay 20 = 2 ∧ e.count retires 20 = 1 :=
  have ⟨hdrained, hokay, hretired, hidle⟩ := two_steps_run_ends
  ⟨two_steps_run, two_steps_run_valid, fun _ => two_steps_run_issues, hdrained, hidle, hokay,
    hretired⟩

end Machine

end RiscvWorker
