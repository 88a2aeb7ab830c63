import RiscvWorker.Core.History

/-! # The instruction token

  The phases name one place for the token. Here the same is said of the
  flags themselves, and what follows from it for the requests to the
  arbiter, the instruction register and the registers. The inputs are
  arbitrary, and so is the slave.
-/

namespace RiscvWorker

/-- The states of a load or a store in the arbiter. -/
def ArbiterState.is_load_store : ArbiterState → Bool
  | .l_wait_arready | .l_data | .s_wait_both | .s_wait_awready | .s_wait_wready | .s_resp => true
  | .idle | .pc_wait_arready | .pc_data => false

namespace RiscvCpu

/-- The places where the token can be. -/
def token_places (s : RiscvCpu) : List Bool :=
  [s.pc_release_pending, s.memory_arbiter.state == .pc_data, s.decoded_valid,
    s.alu_result_valid, s.memory_arbiter.state.is_load_store,
    s.memory_arbiter.load_store_result_valid, s.next_pc_valid]

variable (e : Lts.Execution RiscvCpu Input)

/-- What one token means for a run. -/
structure OneToken : Prop where
  one_place : ∀ k, (e.states k).token_places.count true = 1
  wait_arready : ∀ k, (e.states k).memory_arbiter.state = .pc_wait_arready →
    (e.states k).pc_release_pending = true ∧ (e.states k).pc_stall_released = true
  one_request : ∀ k, ¬ (((e.states k).arbiter_input (e.labels k)).pc_valid = true ∧
    ((e.states k).arbiter_input (e.labels k)).load_store_valid = true)
  /-- From INSTRUCTION up to NEXT_PC the instruction register keeps the word
      that arrived. -/
  instruction_kept : ∀ j k, j < k → (e.states j).instruction_valid (e.labels j) = true →
    (∀ n, j < n → n < k → (e.states n).next_pc_transaction = false) →
    (e.states k).instruction_latched = (e.states j).instruction (e.labels j)
  registers_kept : ∀ k r, r ≠ 0#5 →
    (e.states (k + 1)).register_file.registers r ≠ (e.states k).register_file.registers r →
    (e.states k).next_pc_transaction = true ∨ (e.labels k).cm.cm_regfile_we = true ∨
      (e.labels k).cm.cm_regfile_fault_enable = true

variable {e}

/-! ### One cycle -/

section cycle
variable {s : RiscvCpu} {p : Phase}

theorem At.one_place (h : s.At p) : s.token_places.count true = 1 := by
  obtain ⟨hp, -, hd, hl, hn, ha, hr⟩ := h.fields
  rw [token_places, hp, hd, hl, hn, ha, hr]
  cases p <;> rfl

theorem At.wait_arready (h : s.At p) (hw : s.memory_arbiter.state = .pc_wait_arready) :
    s.pc_release_pending = true ∧ s.pc_stall_released = true := by
  obtain ⟨hp, hr, -, -, -, ha, -⟩ := h.fields
  rw [ha] at hw
  rw [hp, hr]
  cases p <;> simp_all [Phase.flags]

theorem At.one_request (h : s.At p) (i : Input) :
    ¬ ((s.arbiter_input i).pc_valid = true ∧ (s.arbiter_input i).load_store_valid = true) := by
  have hv : (s.arbiter_input i).pc_valid = _ := h.pc_valid i
  rintro ⟨hpc, hls⟩
  rw [hv] at hpc
  rw [h.load_store_valid] at hls
  -- a load or store is requested in `decoded`, where no PC is pending
  have hdec : p = .decoded := by simpa using ((Bool.and_eq_true _ _).mp hls).1
  subst hdec
  exact absurd hpc (by simp)

/-- A register changes by write back or by a write of the control module. -/
theorem registers_next_of_no_write {i : Input} (hn : s.next_pc_transaction = false)
    (hwe : i.cm.cm_regfile_we = false) (hfe : i.cm.cm_regfile_fault_enable = false) :
    (s.next i).register_file.registers = s.register_file.registers := by
  have hw : (s.register_file_input i).write_enable = false := by
    show (s.decoded.do_write_back && s.next_pc_valid && s.next_pc_ready) = false
    rw [Bool.and_assoc, show (s.next_pc_valid && s.next_pc_ready) = false from hn, Bool.and_false]
  have he : (s.register_file_input i).extra_write_enable = false := hwe
  have hf : (s.register_file_input i).fault_write_enable = false := hfe
  simp [RiscvCpu.next, RegisterFile.next, hw, he, hf]

/-- From no phase between INSTRUCTION and NEXT_PC does an edge lead to a fetch. -/
theorem Phase.next_in_flight (hp : p.is_pending = false) (hf : p ≠ .fetch_data)
    (hn : p ≠ .next_pc) (d : Decoded) (i : Input) :
    (p.next d i).is_pending = false ∧ p.next d i ≠ .fetch_data := by
  cases p with
  | waiting | fetch_addr => exact absurd hp (by decide)
  | fetch_data => exact absurd rfl hf
  | next_pc => exact absurd rfl hn
  | _ =>
    simp only [Phase.next]
    (repeat' split) <;> exact ⟨rfl, by decide⟩

end cycle

/-! ### Runs -/

section run
variable (hv : system.valid_exec e)
include hv

/-- The phases between INSTRUCTION and NEXT_PC, both excluded and included. -/
theorem instruction_kept_along {j k : Nat} (hjk : j < k)
    (hj : (e.states j).instruction_valid (e.labels j) = true)
    (hno : ∀ n, j < n → n < k → (e.states n).next_pc_transaction = false) :
    (e.states k).instruction_latched = (e.states j).instruction (e.labels j) ∧
      ∃ p, (e.states k).At p ∧ p.is_pending = false ∧ p ≠ .fetch_data := by
  induction k with
  | zero => omega
  | succ k ih =>
    have hs : e.states (k + 1) = (e.states k).next (e.labels k) := hv.2 k
    obtain ⟨p, hat⟩ := at_phase hv k
    have hnext := hat.next (e.labels k)
    rw [← hs] at hnext
    rcases Nat.eq_or_lt_of_le (Nat.lt_succ_iff.mp hjk) with rfl | hlt
    · -- the cycle of INSTRUCTION itself
      have hins := hat.instruction_valid (e.labels j)
      rw [hj] at hins
      obtain ⟨hp, hrv⟩ := (Bool.and_eq_true _ _).mp hins.symm
      obtain rfl : p = .fetch_data := by simpa using hp
      rw [Phase.next, if_pos hrv] at hnext
      refine ⟨?_, .decoded, hnext, rfl, by decide⟩
      rw [hs]
      show (if (e.states j).instruction_valid (e.labels j) then _ else _) = _
      rw [if_pos hj]
    · obtain ⟨hlat, q, hatq, hpend, hfd⟩ := ih hlt (fun n hjn hnk => hno n hjn (by omega))
      obtain rfl : p = q := hat.unique hatq
      have hlat' : (e.states (k + 1)).instruction_latched = (e.states k).instruction_latched := by
        rw [hs, hat.instruction_latched_next, if_neg (fun hc => hfd hc.1)]
      have hnn := hno k hlt (Nat.lt_succ_self k)
      rw [hat.next_pc_transaction] at hnn
      have hp : p ≠ .next_pc := by simpa using hnn
      exact ⟨hlat'.trans hlat, _, hnext, Phase.next_in_flight hpend hfd hp _ _⟩

/-- Exactly one instruction token exists. -/
theorem one_token : OneToken e where
  one_place k := by
    obtain ⟨p, hat⟩ := at_phase hv k
    exact hat.one_place
  wait_arready k hw := by
    obtain ⟨p, hat⟩ := at_phase hv k
    exact hat.wait_arready hw
  one_request k := by
    obtain ⟨p, hat⟩ := at_phase hv k
    exact hat.one_request (e.labels k)
  instruction_kept _ _ hjk hj hno := (instruction_kept_along hv hjk hj hno).1
  registers_kept k r _ hne := by
    by_contra hnone
    have hs : e.states (k + 1) = (e.states k).next (e.labels k) := hv.2 k
    have hno : (e.states k).next_pc_transaction = false ∧
        (e.labels k).cm.cm_regfile_we = false ∧
        (e.labels k).cm.cm_regfile_fault_enable = false := by
      simpa using hnone
    apply hne
    rw [hs, registers_next_of_no_write hno.1 hno.2.1 hno.2.2]

end run

/-- The token of a run of stores is in its places in turn. -/
theorem one_token_store :
    OneToken (.of_inputs next reset fun _ => store_slave) ∧
    ((Lts.Execution.of_inputs next reset fun _ => store_slave).states 4).token_places =
      [false, false, false, false, true, false, false] := by
  have hv : system.valid_exec (.of_inputs next reset fun _ => store_slave) := ⟨rfl, fun _ => rfl⟩
  exact ⟨one_token hv, by decide +kernel⟩

end RiscvCpu

end RiscvWorker
