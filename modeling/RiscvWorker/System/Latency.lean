import RiscvWorker.System.IsaRun

/-! # How long an instruction takes

  With a memory that delays nothing for more than `D` cycles, an instruction
  that has been released retires within `5 * D + 8` cycles: at most five of
  its phases wait for the memory, and three more pass by themselves. However
  fast the memory is, it takes five cycles.
-/

namespace RiscvWorker

open AxiLite (Master Slave MemorySlave)
open ByteMemory

namespace Phase

/-- How long a phase other than `waiting` lasts at most. -/
def patience (D : Nat) : Phase → Nat
  | .fetch_addr | .fetch_data | .load_addr | .load_data => D + 1
  | .store_both | .store_addr | .store_data | .store_resp => D + 1
  | _ => 1

/-- How far NEXT_PC is at most. -/
def budget (D : Nat) : Phase → Nat
  | .next_pc => 0
  | .alu_result | .mem_result => 1
  | .load_data | .store_resp => D + 2
  | .load_addr | .store_addr | .store_data => 2 * D + 3
  | .store_both => 3 * D + 4
  | .decoded => 3 * D + 5
  | .fetch_data => 4 * D + 6
  | .fetch_addr => 5 * D + 7
  | .waiting => 5 * D + 8

/-- How far an instruction has come at least. -/
def progress : Phase → Nat
  | .waiting => 0
  | .fetch_addr | .fetch_data => 1
  | .decoded => 2
  | .next_pc => 4
  | _ => 3

variable {p : Phase} {d : Decoded} {i : RiscvCpu.Input} {D : Nat}

theorem budget_le (p : Phase) (D : Nat) : p.budget D ≤ 5 * D + 8 := by
  cases p <;> simp only [budget] <;> omega

/-- Leaving a phase pays for the time it took. -/
theorem budget_next (hw : p ≠ .waiting) (hn : p ≠ .next_pc) (hne : p.next d i ≠ p) :
    (p.next d i).budget D + p.patience D ≤ p.budget D := by
  cases p <;> simp only [next] at hne ⊢ <;> (repeat' split at *) <;>
    simp_all only [budget, patience, ne_eq, not_true_eq_false, reduceCtorEq, not_false_eq_true] <;>
    omega

theorem progress_next (hn : p ≠ .next_pc) : (p.next d i).progress ≤ p.progress + 1 := by
  cases p <;> simp only [next] <;> (repeat' split) <;> simp_all [progress]

/-- What a phase waits for. -/
def answered (i : RiscvCpu.Input) : Phase → Bool
  | .waiting => !i.cm.cm_pc_stall
  | .fetch_addr | .load_addr => i.m_axi.arready
  | .fetch_data | .load_data => i.m_axi.rvalid
  | .store_both | .store_addr => i.m_axi.awready
  | .store_data => i.m_axi.wready
  | .store_resp => i.m_axi.bvalid
  | _ => true

theorem next_ne (h : p.answered i = true) : p.next d i ≠ p := by
  cases p <;> simp only [answered, next] at h ⊢ <;> (repeat' split) <;> simp_all

end Phase

namespace CoreAndMemory

/-- The memory of a run delays nothing for more than `D` cycles. -/
def Prompt (D : Nat) (e : Lts.Execution CoreAndMemory Input) : Prop :=
  MemorySlave.Prompt D (fun k => (e.states k).memory) (fun k => (e.labels k).choice)
    (fun k => (e.states k).m_axi (e.labels k))

section latency
variable {e : Lts.Execution CoreAndMemory Input} {ph : Nat → Phase} (hr : PhaseRun e ph) {D : Nat}
include hr

/-- What a phase waits for comes in time. -/
theorem PhaseRun.answered_within (hprompt : Prompt D e) {k : Nat} (hw : ph k ≠ .waiting)
    (hall : ∀ j, k ≤ j → j < k + (ph k).patience D → ph j = ph k) :
    ∃ j, k ≤ j ∧ j < k + (ph k).patience D ∧
      (ph k).answered ((e.states j).cpu_input (e.labels j)) = true := by
  have hmaster : ∀ j, k ≤ j → j < k + (ph k).patience D → (e.states j).m_axi (e.labels j) =
      (e.states j).cpu.port (e.labels j).cm.cm_pc_stall (ph k) := by
    intro j hkj hjk
    rw [hr.m_axi, hall j hkj hjk]
  have hmem : ∀ j, k ≤ j → j < k + (ph k).patience D →
      ∃ M acc, Accesses M acc (ph k) (e.states j).memory := by
    intro j hkj hjk
    rw [← hall j hkj hjk]
    exact (hr.linked j).memory
  generalize ph k = p at *
  cases p with
  | waiting => exact absurd rfl hw
  | fetch_addr | load_addr =>
    obtain ⟨j, hkj, hjk, hready⟩ := hprompt.ar k
      (fun j hkj hjk => by rw [hmaster j hkj (Nat.lt_succ_of_le hjk)]; rfl)
    exact ⟨j, hkj, Nat.lt_succ_of_le hjk, hready⟩
  | fetch_data | load_data =>
    obtain ⟨j, hkj, hjk, hvalid⟩ := hprompt.r k (fun j hkj hjk => by
      obtain ⟨M, acc, hm⟩ := hmem j hkj (Nat.lt_succ_of_le hjk)
      exact MemorySlave.Reading.outstanding hm)
    exact ⟨j, hkj, Nat.lt_succ_of_le hjk, hvalid⟩
  | store_both | store_addr =>
    obtain ⟨j, hkj, hjk, hready⟩ := hprompt.aw k
      (fun j hkj hjk => by rw [hmaster j hkj (Nat.lt_succ_of_le hjk)]; rfl)
    exact ⟨j, hkj, Nat.lt_succ_of_le hjk, hready⟩
  | store_data =>
    obtain ⟨j, hkj, hjk, hready⟩ := hprompt.w k
      (fun j hkj hjk => by rw [hmaster j hkj (Nat.lt_succ_of_le hjk)]; rfl)
    exact ⟨j, hkj, Nat.lt_succ_of_le hjk, hready⟩
  | store_resp =>
    obtain ⟨j, hkj, hjk, hvalid⟩ := hprompt.b k (fun j hkj hjk => by
      obtain ⟨M, acc, hm⟩ := hmem j hkj (Nat.lt_succ_of_le hjk)
      exact MemorySlave.Writing.outstanding hm)
    exact ⟨j, hkj, Nat.lt_succ_of_le hjk, hvalid⟩
  | decoded | alu_result | mem_result | next_pc =>
    exact ⟨k, Nat.le_refl k, Nat.lt_succ_self k, rfl⟩

/-- A phase is left in time, and its budget pays for that. -/
theorem PhaseRun.left_within (hprompt : Prompt D e) {k : Nat} (hw : ph k ≠ .waiting)
    (hn : ph k ≠ .next_pc) :
    ∃ j, k < j ∧ ph j ≠ .waiting ∧ j + (ph j).budget D ≤ k + (ph k).budget D := by
  -- the phase cannot last as long as its patience
  have hout : (∀ j, k ≤ j → j < k + (ph k).patience D → ph j = ph k) →
      ∃ j, k ≤ j ∧ j < k + (ph k).patience D ∧ ph (j + 1) ≠ ph k := by
    intro hall
    obtain ⟨j, hkj, hjk, hans⟩ := hr.answered_within hprompt hw hall
    refine ⟨j, hkj, hjk, ?_⟩
    rw [hr.next j, hall j hkj hjk]
    exact Phase.next_ne hans
  obtain ⟨j, hkj, hne, hkept, hfirst⟩ := @Lts.exists_first (fun j => ph j = ph k)
    (fun j => ph (j + 1) ≠ ph k) k rfl (fun j _ _ hno => not_not.mp hno)
    (fun hall => by
      obtain ⟨j, hkj, -, hj⟩ := hout (fun j hkj _ => hall j hkj)
      exact ⟨j, hkj, hj⟩)
  have hjk : j < k + (ph k).patience D := by
    by_contra hlate
    obtain ⟨j', hkj', hjk', hne'⟩ := hout (fun i hki hik => (hfirst i hki (by omega)).1)
    exact (hfirst j' hkj' (by omega)).2 hne'
  have hnext := hr.next j
  rw [hkept] at hnext
  rw [hnext] at hne
  have hspent := Phase.budget_next (D := D) hw hn hne
  refine ⟨j + 1, by omega, ?_, ?_⟩
  · rw [hnext]
    exact Phase.next_ne_waiting hw hn
  · rw [hnext]
    omega

/-- An instruction in flight retires within its budget. -/
theorem PhaseRun.retires_within (hprompt : Prompt D e) {k : Nat} (hw : ph k ≠ .waiting) :
    ∃ j, k ≤ j ∧ j ≤ k + (ph k).budget D ∧ ph j = .next_pc ∧
      ∀ i, k ≤ i → i < j → ph i ≠ .waiting ∧ ph i ≠ .next_pc := by
  obtain ⟨j, hkj, hn, hbefore⟩ := hr.retires hprompt.responsive hw
  obtain ⟨j', hkj', hj', hn'⟩ := @Lts.exists_within (fun k => ph k ≠ .waiting)
    (fun k => ph k = .next_pc) (fun k => (ph k).budget D)
    (fun k hk hgo => hr.left_within hprompt hk hgo) k hw
  refine ⟨j, hkj, ?_, hn, hbefore⟩
  -- the first NEXT_PC is not later than any other
  by_contra hlate
  exact (hbefore j' hkj' (by omega)).2 hn'

/-! ### Throughput -/

theorem retires_iff (k : Nat) :
    retires (e.states k) (e.labels k) = true ↔ ph k = .next_pc := by
  unfold retires
  rw [(hr.linked k).at_phase.next_pc_transaction, beq_iff_eq]

/-- No instruction takes less than five cycles. -/
theorem count_retires_le {t k : Nat} (htk : t ≤ k) :
    5 * e.count retires k + (ph k).progress ≤
      5 * e.count retires t + (ph t).progress + (k - t) := by
  refine Lts.stretch_induction (P := fun k => 5 * e.count retires k + (ph k).progress ≤
    5 * e.count retires t + (ph t).progress + (k - t)) htk (by omega) ?_
  intro i hti _ hle
  by_cases hn : ph i = .next_pc
  · rw [e.count_succ_of_true retires ((retires_iff hr i).mpr hn), hr.next i, hn]
    rw [hn] at hle
    simp only [Phase.next, Phase.progress] at hle ⊢
    omega
  · have hfalse : retires (e.states i) (e.labels i) = false :=
      eq_false_of_ne_true (mt (retires_iff hr i).mp hn)
    have hprog := Phase.progress_next (d := (e.states i).cpu.decoded)
      (i := (e.states i).cpu_input (e.labels i)) hn
    rw [e.count_succ_of_false retires hfalse, hr.next i]
    omega

/-- A waiting PC under a low stall is the first to retire. -/
theorem PhaseRun.first_next_pc (hprompt : Prompt D e) {t : Nat} (hw : ph t = .waiting)
    (hst : (e.labels t).cm.cm_pc_stall = false) :
    ∃ j, t ≤ j ∧ j < t + (5 * D + 9) ∧ ph j = .next_pc ∧
      ∀ i, t ≤ i → i < j → ph i ≠ .next_pc := by
  have hleave : ph (t + 1) ≠ .waiting ∧ (ph (t + 1)).budget D ≤ 5 * D + 7 := by
    have hst' : ((e.states t).cpu_input (e.labels t)).cm.cm_pc_stall = false := hst
    rw [hr.next t, hw]
    simp only [Phase.next, hst', Bool.false_eq_true, if_false]
    split
    · refine ⟨by decide, ?_⟩
      simp only [Phase.budget]
      omega
    · exact ⟨by decide, Nat.le_refl _⟩
  obtain ⟨j, htj, hjt, hn, hbefore⟩ := hr.retires_within hprompt hleave.1
  refine ⟨j, by omega, by omega, hn, ?_⟩
  intro i hti hij
  by_cases heq : i = t
  · rw [heq, hw]
    decide
  · exact (hbefore i (by omega) hij).2

/-- With the stall low an instruction retires within `5 * D + 9` cycles. -/
theorem next_retires (hprompt : Prompt D e) {t : Nat}
    (hst : (e.labels t).cm.cm_pc_stall = false) :
    ∃ j, t ≤ j ∧ j < t + (5 * D + 9) ∧ ph j = .next_pc := by
  by_cases hw : ph t = .waiting
  · obtain ⟨j, htj, hjt, hn, -⟩ := hr.first_next_pc hprompt hw hst
    exact ⟨j, htj, hjt, hn⟩
  · obtain ⟨j, htj, hjt, hn, -⟩ := hr.retires_within hprompt hw
    have hle := (ph t).budget_le D
    exact ⟨j, htj, by omega, hn⟩

/-- As long as the stall is low, every `5 * D + 9` cycles another instruction
    retires. -/
theorem le_count_retires (hprompt : Prompt D e) {t n : Nat}
    (hst : ∀ j, t ≤ j → j < t + n * (5 * D + 9) → (e.labels j).cm.cm_pc_stall = false) :
    e.count retires t + n ≤ e.count retires (t + n * (5 * D + 9)) := by
  induction n with
  | zero => simp
  | succ n ih =>
    have hlen : (n + 1) * (5 * D + 9) = n * (5 * D + 9) + (5 * D + 9) := Nat.succ_mul n _
    have hn := ih (fun j htj hjt => hst j htj (by omega))
    obtain ⟨j, htj, hjt, hj⟩ := next_retires hr hprompt (hst (t + n * (5 * D + 9)) (by omega)
      (by omega))
    have hbefore := e.count_mono retires htj
    have hafter := e.count_mono retires (j := j + 1)
      (k := t + (n + 1) * (5 * D + 9)) (by omega)
    rw [e.count_succ_of_true retires ((retires_iff hr j).mpr hj)] at hafter
    omega

end latency

/-- The result of the `n`-th instruction of a run that nobody stalls is there
    after `5 * n` cycles at the earliest, and after `n * (5 * D + 9)` at the
    latest. -/
theorem nth_instruction_within {program : Memory} {e : Lts.Execution CoreAndMemory Input}
    (hv : (system program).valid_exec e) (hquiet : ∀ k, (e.labels k).cm.quiet) {D : Nat}
    (hprompt : Prompt D e) {n : Nat}
    (hst : ∀ j, j < n * (5 * D + 9) → (e.labels j).cm.cm_pc_stall = false)
    {A : Rv32i.ArchState} (hA : Lts.iterate Rv32i.step n (boot_state program) = some A) :
    ∃ k, 5 * n ≤ k ∧ k ≤ n * (5 * D + 9) ∧ e.count retires k = n ∧ (e.states k).arch = A := by
  obtain ⟨ph, hr, hfirst⟩ := phase_run hv
  have hmany := le_count_retires hr hprompt (t := 0) (n := n) (fun j _ hj => hst j (by omega))
  rw [Nat.zero_add, e.count_zero, Nat.zero_add] at hmany
  -- the cycle after the retirement that makes `n` of them
  have hend : ∃ k, k ≤ n * (5 * D + 9) ∧ e.count retires k = n ∧ ph k = .waiting := by
    cases n with
    | zero => exact ⟨0, Nat.zero_le _, rfl, hfirst⟩
    | succ n =>
      obtain ⟨j, hj, hret, hcount⟩ := e.exists_count_of_lt retires hmany
      refine ⟨j + 1, hj, ?_, ?_⟩
      · rw [e.count_succ_of_true retires hret, hcount]
      · rw [hr.next j, (retires_iff hr j).mp hret]
        rfl
  obtain ⟨k, hk, hcount, hw⟩ := hend
  have hfew := count_retires_le hr (Nat.zero_le k)
  rw [e.count_zero, hfirst, hw, hcount] at hfew
  simp only [Phase.progress] at hfew
  refine ⟨k, by omega, hk, hcount, ?_⟩
  obtain ⟨p, hp⟩ := run_tracks hv hquiet k (hcount.symm ▸ hA)
  obtain rfl : p = .waiting := hp.at_phase.unique (hw ▸ (hr.linked k).at_phase)
  exact hp.arch_eq

/-- Two rounds of the counter, on a memory that answers within five cycles. -/
theorem nth_instruction_within_counter :
    ∃ k, 40 ≤ k ∧ k ≤ 272 ∧ (slow_run counter fun _ => false).count retires k = 8 ∧
      ((slow_run counter fun _ => false).states k).arch = counted 8 := by
  have hprompt : Prompt 5 (slow_run counter fun _ => false) :=
    MemorySlave.eager_again_prompt (MemorySlave.now_and_then_again 2) fun _ => rfl
  exact nth_instruction_within (slow_run_valid _ _) (fun _ => ⟨rfl, rfl, rfl⟩) hprompt
    (fun _ _ => rfl) (counter_steps (Nat.le_refl 8))

end CoreAndMemory

end RiscvWorker
