import RiscvWorker.System.SingleStep

/-! # Stopping the core

  STOP raises the stall and is answered at once, with no busy signal from the
  core. An instruction that has been released by then still runs to its end:
  it may change the PC, a register and the memory after the answer. Only from
  the first drained cycle on is the architectural state frozen.
-/

namespace RiscvWorker

open AxiLite (Master Slave MemorySlave)
open ByteMemory
open Rv32i (ArchState)

namespace Machine

variable {program : Memory} {e : Lts.Execution Machine Input}

/-- A cycle in which nothing is issued that reaches the core. -/
theorem quiet_of_not_disturbing {s : CmAndCore} (h : s.soc_control.disturbing = false) :
    s.cm.quiet ∧ s.soc_control.releasing = false := by
  unfold SocControl.disturbing at h
  simp only [Bool.or_eq_false_iff] at h
  obtain ⟨⟨⟨hrel, hreg⟩, hfault⟩, hpc⟩ := h
  exact ⟨⟨hpc, hreg, hfault⟩, hrel⟩

section stalled
variable {ph : Nat → Phase} (hp : Phased e ph) {t : Nat}
  (hst : (e.states t).chip.soc_control.pc_stall = true)
include hp hst

/-- Under the stall at most the instruction in flight retires. -/
theorem Phased.retires_at_most_one {j : Nat} (hj : t ≤ j)
    (hno : ∀ k, t ≤ k → k < j → (e.states k).chip.soc_control.releasing = false) :
    e.count retires j ≤ e.count retires t + 1 := by
  -- a release needs the stall low
  have hnone : e.count releases j = e.count releases t := by
    apply e.count_eq_of_forall_false releases hj
    intro k hk hkj
    apply eq_false_of_ne_true
    intro hrel
    have hlow := ((hp.releases_iff k).mp hrel).2
    rw [hp.stays_stalled hst hk (fun i hi hik => hno i hi (by omega))] at hlow
    simp at hlow
  -- what has been released by then has retired or is in flight
  have hj' := hp.count_releases j
  have ht' := hp.count_releases t
  have hbusy : (ph t != .waiting).toNat ≤ 1 := Bool.toNat_le _
  omega

/-- A stalled machine drains, unless a START or STEP comes first. -/
theorem Phased.drains (hresp : CoreAndMemory.Responsive (core_run e)) :
    ∃ k, t ≤ k ∧ ((e.states k).chip.Drained ∨ (e.states k).chip.soc_control.releasing = true) := by
  by_cases hrel : ∃ k, t ≤ k ∧ (e.states k).chip.soc_control.releasing = true
  · obtain ⟨k, hk, hrel⟩ := hrel
    exact ⟨k, hk, Or.inr hrel⟩
  have hno : ∀ k, t ≤ k → (e.states k).chip.soc_control.releasing = false := by
    intro k hk
    apply eq_false_of_ne_true
    intro hc
    exact hrel ⟨k, hk, hc⟩
  -- no instruction is in flight, or the one that is retires
  by_cases hw : ph t = .waiting
  · exact ⟨t, Nat.le_refl t, Or.inl ((hp.drained_iff t).mpr ⟨hw, hst⟩)⟩
  · obtain ⟨j, hj, hn, -⟩ := hp.core.retires hresp hw
    have hw' : ph (j + 1) = .waiting := by
      rw [hp.next j, hn]
      rfl
    have hst' := hp.stays_stalled hst (j := j + 1) (by omega) (fun k hk _ => hno k hk)
    exact ⟨j + 1, by omega, Or.inl ((hp.drained_iff (j + 1)).mpr ⟨hw', hst'⟩)⟩

end stalled

/-- What STOP promises. From the cycle after its WRITE_ISSUE on, and so long
    before it is answered: until the next START or STEP at most one more
    instruction retires; with finite delays of the memory the machine drains;
    and once it is drained, the PC, the registers and the memory do not change
    before the next START, STEP, PC, register or fault write. -/
theorem stop_drains (hv : (system program).valid_exec e) {t ta tw tb : Nat}
    (h : SocControl.WriteTransaction (control_run e) t ta tw tb)
    (hsel : selector (e.labels ta).s_axi.awaddr = SUB_SEL_CTRL)
    (hoff : window_offset (e.labels ta).s_axi.awaddr = CTRL_REG_STOP) :
    (∀ j, tw + 2 ≤ j →
      (∀ k, tw + 2 ≤ k → k < j → (e.states k).chip.soc_control.releasing = false) →
      (e.states j).chip.soc_control.pc_stall = true ∧
        e.count retires j ≤ e.count retires (tw + 2) + 1) ∧
    (CoreAndMemory.Responsive (core_run e) →
      ∃ k, tw + 2 ≤ k ∧
        ((e.states k).chip.Drained ∨ (e.states k).chip.soc_control.releasing = true)) ∧
    ∀ k j, tw + 2 ≤ k → k ≤ j → (e.states k).chip.Drained →
      (∀ i, k ≤ i → i < j → (e.states i).chip.soc_control.disturbing = false) →
      (e.states j).chip.Drained ∧ (e.states j).arch = (e.states k).arch := by
  obtain ⟨ph, hp⟩ := phased hv
  have hst : (e.states (tw + 2)).chip.soc_control.pc_stall = true := by
    have hissued := h.stall_issued (control_run_step hv)
    have haddr : ((control_run e).labels ta).s_axi.awaddr = (e.labels ta).s_axi.awaddr := rfl
    rw [haddr, hsel, hoff] at hissued
    exact hissued
  refine ⟨?_, hp.drains hst, ?_⟩
  · intro j hj hno
    exact ⟨hp.stays_stalled hst hj hno, hp.retires_at_most_one hst hj hno⟩
  · intro k j hk hkj hd hno
    have hdrained : ∀ i, k ≤ i → i ≤ j → (e.states i).chip.Drained := by
      intro i hi hij
      exact hp.stays_drained hd (fun i' h1 h2 => (quiet_of_not_disturbing (hno i' h1 h2)).2) hi hij
    exact ⟨hdrained j hkj (Nat.le_refl j), hp.frozen hkj hdrained
      (fun i h1 h2 => (quiet_of_not_disturbing (hno i h1 h2)).1)⟩

/-- START, and STOP while the memory is slow to accept the first fetch. -/
def stop_run : Lts.Execution Machine Input :=
  .of_inputs next (boot CoreAndMemory.nops) fun k =>
    { s_axi :=
        if k < 6 then .writing 0x60001004#32 1#32 0b1111#4
        else if k < 12 then .writing 0x60001008#32 1#32 0b1111#4
        else .idle
      choice := { MemorySlave.eager with arready := decide (20 ≤ k) } }

theorem stop_run_valid : (system CoreAndMemory.nops).valid_exec stop_run := ⟨rfl, fun _ => rfl⟩

theorem stop_run_start : SocControl.WriteTransaction (control_run stop_run) 0 1 2 5 :=
  .of_fast_master (control_run_step stop_run_valid) rfl (fun _ _ hj => if_pos (by omega))

theorem stop_run_transaction : SocControl.WriteTransaction (control_run stop_run) 6 7 8 11 :=
  have hs := control_run_step stop_run_valid
  .of_fast_master hs (stop_run_start.idle_after hs)
    (fun _ hj hj' => (if_neg (by omega)).trans (if_pos (by omega)))

/-- After the STOP nothing is issued any more. -/
theorem stop_run_quiet {j : Nat} (hj : 12 ≤ j) :
    (stop_run.states j).chip.soc_control.disturbing = false := by
  have hidle := idle_while stop_run_valid (n := 12)
    (stop_run_transaction.idle_after (control_run_step stop_run_valid)) hj
    (fun i hi _ => (if_neg (by omega)).trans (if_neg (by omega)))
  have hne : (stop_run.states j).chip.soc_control.state ≠ .write_issue := by
    rw [hidle]
    decide
  obtain ⟨hreg, hfault, hpc⟩ := SocControl.enables_low hne
  unfold SocControl.disturbing
  rw [SocControl.releasing_of_not_issue hne, hreg, hfault, hpc]
  rfl

/-- STOP is answered OKAY in cycle 11, nothing is written after it, and yet
    the PC moves on. -/
theorem stop_not_frozen :
    ∃ e : Lts.Execution Machine Input, (system CoreAndMemory.nops).valid_exec e ∧
      SocControl.WriteTransaction (control_run e) 6 7 8 11 ∧
      selector (e.labels 7).s_axi.awaddr = SUB_SEL_CTRL ∧
      window_offset (e.labels 7).s_axi.awaddr = CTRL_REG_STOP ∧
      (e.labels 8).s_axi.wstrb = 0b1111#4 ∧ (e.states 11).chip.s_axi.bresp = AXI_RESP_OKAY ∧
      (∀ j, 12 ≤ j → (e.states j).chip.soc_control.disturbing = false) ∧
      (e.states 12).arch.pc = 0x00001000#32 ∧ (e.states 26).arch.pc = 0x00001004#32 := by
  refine ⟨stop_run, stop_run_valid, stop_run_transaction, by decide, by decide, by decide,
    by decide +kernel, ?_, by decide +kernel, by decide +kernel⟩
  intro j hj
  exact stop_run_quiet hj

/-- The same run: one instruction retires, and then the state is frozen. -/
theorem stop_drains_nop :
    stop_run.count retires 100 ≤ 1 ∧ (stop_run.states 100).arch = (stop_run.states 26).arch := by
  obtain ⟨hmost, -, hfrozen⟩ := stop_drains stop_run_valid stop_run_transaction (by decide)
    (by decide)
  have hquiet : ∀ k, 10 ≤ k → k < 100 →
      (stop_run.states k).chip.soc_control.disturbing = false := by
    intro k hk _
    by_cases hlate : 12 ≤ k
    · exact stop_run_quiet hlate
    · have hk' : k = 10 ∨ k = 11 := by omega
      rcases hk' with rfl | rfl <;> decide +kernel
  have hnone : stop_run.count retires 10 = 0 := by decide +kernel
  have hd : (stop_run.states 26).chip.Drained :=
    ⟨by decide +kernel, by decide +kernel, by decide +kernel, by decide +kernel⟩
  refine ⟨?_, (hfrozen 26 100 (by decide) (by decide) hd
    (fun i hi hij => hquiet i (by omega) hij)).2⟩
  have hcount := (hmost 100 (by decide)
    (fun k hk hkj => (quiet_of_not_disturbing (hquiet k hk hkj)).2)).2
  rwa [hnone] at hcount

end Machine

end RiscvWorker
