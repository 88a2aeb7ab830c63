import RiscvWorker.Core.Decoding
import RiscvWorker.Core.History

/-! # The lowest bit of the program counter

  RV32I jumps to even addresses only: the offsets of branches and JAL are
  even, and JALR clears bit 0 of its target. The core does not clear it. So
  the program counter stays even in exactly those runs in which the base
  register and the immediate of every JALR have the same lowest bit.
-/

namespace RiscvWorker

namespace RiscvCpu

/-! ### Where the next PC comes from -/

section target
variable {s : RiscvCpu}

/-- The instruction register holds a JALR. -/
def is_jalr (s : RiscvCpu) : Prop := InstructionDecode.opcode s.instruction_latched = OPCODE_JALR

/-- The base and the immediate of a JALR have the same lowest bit. -/
def same_parity (s : RiscvCpu) : Prop := s.rs1.getLsbD 0 = s.decoded.imm.getLsbD 0

theorem same_parity_iff : s.same_parity ↔ (s.rs1 + s.decoded.imm).getLsbD 0 = false := by
  rw [same_parity, add_bit_zero]
  cases s.rs1.getLsbD 0 <;> cases s.decoded.imm.getLsbD 0 <;> decide

theorem next_pc_jalr (h : s.is_jalr) : s.next_pc = s.rs1 + s.decoded.imm := by
  have hd := decode_jalr h
  rw [← RiscvCpu.decoded] at hd
  have hjump : s.decoded.is_jump = true := by rw [hd]
  have hjalr : s.decoded.is_jalr = true := by rw [hd]
  rw [next_pc, if_pos hjump, if_pos hjalr]

theorem pc_plus_4_bit_zero (hpc : s.pc.getLsbD 0 = false) : s.pc_plus_4.getLsbD 0 = false := by
  rw [pc_plus_4, add_bit_zero, hpc]
  rfl

/-- Every instruction but JALR goes from an even PC to an even PC. -/
theorem next_pc_bit_zero (hpc : s.pc.getLsbD 0 = false) (h : ¬ s.is_jalr) :
    s.next_pc.getLsbD 0 = false := by
  have hjalr : s.decoded.is_jalr = false := beq_eq_false_iff_ne.mpr h
  rw [next_pc, hjalr]
  by_cases hjump : s.decoded.is_jump = true
  · -- of the two jumps this is JAL
    have hop : InstructionDecode.opcode s.instruction_latched = OPCODE_JAL := by
      have hor : InstructionDecode.opcode s.instruction_latched = OPCODE_JAL ∨
          InstructionDecode.opcode s.instruction_latched = OPCODE_JALR := by
        simpa [RiscvCpu.decoded, instruction_decode] using hjump
      exact hor.resolve_right h
    have himm : s.decoded.imm = Rv32i.imm_j s.instruction_latched := by
      rw [RiscvCpu.decoded, decode_jal hop]
    rw [if_pos hjump, himm]
    show (s.pc + _).getLsbD 0 = false
    rw [add_bit_zero, hpc, imm_j_bit_zero]
    rfl
  rw [if_neg hjump]
  by_cases hmem : s.decoded.use_mem = true
  · rw [if_pos hmem]
    exact pc_plus_4_bit_zero hpc
  rw [if_neg hmem]
  by_cases htaken : (s.decoded.is_branch && s.branch_taken) = true
  · have hop : InstructionDecode.opcode s.instruction_latched = OPCODE_BRANCH := by
      have hbranch := ((Bool.and_eq_true _ _).mp htaken).1
      simpa [RiscvCpu.decoded, instruction_decode] using hbranch
    have himm : s.decoded.imm = Rv32i.imm_b s.instruction_latched := by
      rw [RiscvCpu.decoded, decode_branch hop]
    rw [if_pos htaken, himm, add_bit_zero, hpc, imm_b_bit_zero]
    rfl
  · rw [if_neg htaken]
    exact pc_plus_4_bit_zero hpc

end target

/-! ### Runs -/

section run
variable (e : Lts.Execution RiscvCpu Input)

/-- The control module writes only multiples of four to the PC. -/
def PcWritesAligned : Prop :=
  ∀ k, (e.labels k).cm.cm_pc_we = true → (e.labels k).cm.cm_pc_write_data.toNat % 4 = 0

/-- A JALR retires in cycle `k`. -/
def RetiresJalr (k : Nat) : Prop :=
  (e.states k).next_pc_transaction = true ∧ (e.states k).is_jalr

/-- The PC is even throughout, and a JALR goes to its target with bit 0
    cleared. -/
def PcStaysEven : Prop :=
  (∀ k, (e.states k).pc.getLsbD 0 = false) ∧
  ∀ k, RetiresJalr e k →
    (e.states (k + 1)).pc = ((e.states k).rs1 + (e.states k).decoded.imm) &&& 0xFFFFFFFE#32

variable {e} (hv : system.valid_exec e)
include hv

theorem pc_after_next_pc {k : Nat} (h : (e.states k).next_pc_transaction = true) :
    (e.states (k + 1)).pc = (e.states k).next_pc := by
  rw [hv.2 k]
  show (e.states k).pc' (e.labels k) = _
  rw [pc', if_pos h]

/-- An even PC stays even over one cycle that retires no odd JALR. -/
theorem pc_bit_zero_next (hw : PcWritesAligned e) {k : Nat}
    (hjalr : RetiresJalr e k → (e.states k).same_parity)
    (hpc : (e.states k).pc.getLsbD 0 = false) : (e.states (k + 1)).pc.getLsbD 0 = false := by
  by_cases hn : (e.states k).next_pc_transaction = true
  · rw [pc_after_next_pc hv hn]
    by_cases hj : (e.states k).is_jalr
    · rw [next_pc_jalr hj]
      exact same_parity_iff.mp (hjalr ⟨hn, hj⟩)
    · exact next_pc_bit_zero hpc hj
  · rw [hv.2 k]
    show ((e.states k).pc' (e.labels k)).getLsbD 0 = false
    rw [pc', if_neg hn]
    by_cases ht : (e.states k).pc_transaction (e.labels k) = true
    · rw [if_pos ht]
      exact hpc
    rw [if_neg ht]
    by_cases hwe : ((e.labels k).cm.cm_pc_stall && (e.labels k).cm.cm_pc_we) = true
    · -- a multiple of four from the control module
      have hmod := hw k ((Bool.and_eq_true _ _).mp hwe).2
      rw [if_pos hwe]
      exact bit_zero_of_mod_four hmod
    · rw [if_neg hwe]
      exact hpc

theorem pc_bit_zero_always (hw : PcWritesAligned e)
    (hjalr : ∀ k, RetiresJalr e k → (e.states k).same_parity) (k : Nat) :
    (e.states k).pc.getLsbD 0 = false := by
  induction k with
  | zero =>
    have hinit : e.states 0 = reset := hv.1
    rw [hinit]
    decide
  | succ k ih => exact pc_bit_zero_next hv hw (hjalr k) ih

/-- The PC stays even iff the base and the immediate of every JALR that
    retires have the same lowest bit. -/
theorem pc_stays_even_iff (hw : PcWritesAligned e) :
    PcStaysEven e ↔ ∀ k, RetiresJalr e k → (e.states k).same_parity := by
  constructor
  · intro hboth k hk
    obtain ⟨heven, _⟩ := hboth
    have hpc := heven (k + 1)
    rw [pc_after_next_pc hv hk.1, next_pc_jalr hk.2] at hpc
    exact same_parity_iff.mpr hpc
  · intro hjalr
    refine ⟨pc_bit_zero_always hv hw hjalr, ?_⟩
    intro k hk
    have htarget := same_parity_iff.mp (hjalr k hk)
    rw [pc_after_next_pc hv hk.1, next_pc_jalr hk.2, and_even htarget]

end run

/-- The memory is full of `jalr x0, 8(x0)`, and the core is halted at first: in
    the second cycle its PC is written. -/
def even_jumps : Lts.Execution RiscvCpu Input :=
  .of_inputs next reset fun k =>
    { m_axi := { store_slave.m_axi with rdata := 0x00800067#32 }
      cm :=
        { store_slave.cm with
          cm_pc_stall := decide (k < 3), cm_pc_we := k == 1, cm_pc_write_data := 0x2000#32 } }

/-- Nothing else is fetched. -/
theorem even_jumps_instruction (k : Nat) :
    (even_jumps.states k).instruction_latched = 0#32 ∨
      (even_jumps.states k).instruction_latched = 0x00800067#32 := by
  induction k with
  | zero => exact .inl rfl
  | succ k ih =>
    have hnext : (even_jumps.states (k + 1)).instruction_latched =
        if (even_jumps.states k).instruction_valid (even_jumps.labels k) then
          (even_jumps.states k).instruction (even_jumps.labels k)
        else (even_jumps.states k).instruction_latched := rfl
    rw [hnext]
    split
    · unfold instruction MemoryArbiter.instruction
      split
      · exact .inr rfl
      · exact .inl rfl
    · exact ih

/-- The jumps keep the PC even: it goes from the written address to 8. -/
theorem pc_stays_even_iff_jumps :
    PcStaysEven even_jumps ∧ (even_jumps.states 2).pc = 0x2000#32 ∧
      RetiresJalr even_jumps 7 ∧ (even_jumps.states 8).pc = 8#32 := by
  have hv : system.valid_exec even_jumps := ⟨rfl, fun _ => rfl⟩
  have hw : PcWritesAligned even_jumps := by
    intro k _
    show (0x2000#32).toNat % 4 = 0
    decide
  have hjalr : ∀ k, RetiresJalr even_jumps k → (even_jumps.states k).same_parity := by
    intro k hk
    obtain h | h := even_jumps_instruction k
    · exact absurd (show InstructionDecode.opcode _ = _ from hk.2) (by rw [h]; decide)
    · -- the base is x0
      have hbase : (even_jumps.states k).decoded.rs1_addr = 0#5 := by
        unfold decoded
        rw [h]
        rfl
      unfold same_parity rs1 RegisterFile.read
      rw [if_pos hbase]
      unfold decoded
      rw [h]
      decide
  exact ⟨(pc_stays_even_iff hv hw).mpr hjalr, by decide +kernel,
    ⟨by decide +kernel, show _ = _ by decide +kernel⟩, by decide +kernel⟩

/-- The memory is full of `jalr x0, 1(x0)`. -/
def odd_jump_slave : Input :=
  { store_slave with m_axi := { store_slave.m_axi with rdata := 0x00100067#32 } }

/-- The first `jalr x0, 1(x0)` sets the PC to 1. -/
theorem odd_jump_taken :
    ¬ ∀ e : Lts.Execution RiscvCpu Input, system.valid_exec e → PcWritesAligned e →
      PcStaysEven e := by
  intro h
  have hv : system.valid_exec (.of_inputs next reset fun _ => odd_jump_slave) :=
    ⟨rfl, fun _ => rfl⟩
  have hw : PcWritesAligned (.of_inputs next reset fun _ => odd_jump_slave) := by
    intro k hk
    exact absurd hk Bool.false_ne_true
  have hpc := (h _ hv hw).1 5
  exact absurd hpc (by decide +kernel)

end RiscvCpu

end RiscvWorker
