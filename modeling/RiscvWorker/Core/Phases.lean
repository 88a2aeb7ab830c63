import RiscvWorker.Library.Lts
import RiscvWorker.Hdl.RiscvCpu

/-! # The phases of an instruction

  The control state of the core is spread over five flags, the arbiter's
  state machine and its result pulse. In every run from reset these take
  only thirteen joint values, the *phases* below: one token travels from the
  release of a PC to the NEXT_PC transaction. `Phase.next` is the abstract
  sequencer; `RiscvCpu.At.next` says that the core refines it, whatever its
  inputs are.

  All later results about the core argue by cases on the phase and use the
  lemmas of this module for what a clock edge does in each of them.
-/

namespace RiscvWorker

open AxiLite (Master Slave)

/-- Where the instruction token is. -/
inductive Phase where
  /-- A PC waits for the stall to be released. -/
  | waiting
  /-- The fetch waits for ARREADY. -/
  | fetch_addr
  /-- The fetch waits for its data. -/
  | fetch_data
  | decoded
  | alu_result
  | load_addr
  | load_data
  /-- A store whose address and data are both not accepted yet. -/
  | store_both
  | store_addr
  | store_data
  | store_resp
  | mem_result
  | next_pc
  deriving DecidableEq, Repr

/-- The control state of the core. -/
structure Flags where
  pc_release_pending : Bool
  pc_stall_released : Bool
  decoded_valid : Bool
  alu_result_valid : Bool
  next_pc_valid : Bool
  arbiter_state : ArbiterState
  load_store_result_valid : Bool
  deriving DecidableEq, Repr

def RiscvCpu.flags (s : RiscvCpu) : Flags where
  pc_release_pending := s.pc_release_pending
  pc_stall_released := s.pc_stall_released
  decoded_valid := s.decoded_valid
  alu_result_valid := s.alu_result_valid
  next_pc_valid := s.next_pc_valid
  arbiter_state := s.memory_arbiter.state
  load_store_result_valid := s.memory_arbiter.load_store_result_valid

namespace Phase

/-- The values of the control state in a phase: pending, released, decoded,
    ALU result, next PC, arbiter, load/store result. -/
def flags : Phase → Flags
  | .waiting => ⟨true, false, false, false, false, .idle, false⟩
  | .fetch_addr => ⟨true, true, false, false, false, .pc_wait_arready, false⟩
  | .fetch_data => ⟨false, false, false, false, false, .pc_data, false⟩
  | .decoded => ⟨false, false, true, false, false, .idle, false⟩
  | .alu_result => ⟨false, false, false, true, false, .idle, false⟩
  | .load_addr => ⟨false, false, false, false, false, .l_wait_arready, false⟩
  | .load_data => ⟨false, false, false, false, false, .l_data, false⟩
  | .store_both => ⟨false, false, false, false, false, .s_wait_both, false⟩
  | .store_addr => ⟨false, false, false, false, false, .s_wait_awready, false⟩
  | .store_data => ⟨false, false, false, false, false, .s_wait_wready, false⟩
  | .store_resp => ⟨false, false, false, false, false, .s_resp, false⟩
  | .mem_result => ⟨false, false, false, false, false, .idle, true⟩
  | .next_pc => ⟨false, false, false, false, true, .idle, false⟩

/-- What the latched instruction is in a phase that depends on it. -/
def Fits (d : Decoded) : Phase → Prop
  | .alu_result => d.use_mem = false
  | .load_addr | .load_data => d.use_mem = true ∧ d.mem_is_write = false
  | .store_both | .store_addr | .store_data | .store_resp =>
    d.use_mem = true ∧ d.mem_is_write = true
  | .mem_result => d.use_mem = true
  | _ => True

/-- The abstract sequencer: one edge of the token. -/
def next (d : Decoded) (i : RiscvCpu.Input) : Phase → Phase
  | .waiting =>
    if i.cm.cm_pc_stall then .waiting
    else if i.m_axi.arready then .fetch_data else .fetch_addr
  | .fetch_addr => if i.m_axi.arready then .fetch_data else .fetch_addr
  | .fetch_data => if i.m_axi.rvalid then .decoded else .fetch_data
  | .decoded =>
    if d.use_mem then (if d.mem_is_write then .store_both else .load_addr) else .alu_result
  | .alu_result => .next_pc
  | .load_addr => if i.m_axi.arready then .load_data else .load_addr
  | .load_data => if i.m_axi.rvalid then .mem_result else .load_data
  | .store_both =>
    if i.m_axi.awready && i.m_axi.wready then .store_resp
    else if i.m_axi.awready then .store_data
    else if i.m_axi.wready then .store_addr
    else .store_both
  | .store_addr => if i.m_axi.awready then .store_resp else .store_addr
  | .store_data => if i.m_axi.wready then .store_resp else .store_data
  | .store_resp => if i.m_axi.bvalid then .mem_result else .store_resp
  | .mem_result => .next_pc
  | .next_pc => .waiting

/-- The phases in which a PC has not been accepted by the fetch yet. -/
def is_pending : Phase → Bool
  | .waiting | .fetch_addr => true
  | _ => false

theorem flags_pending (p : Phase) : p.flags.pc_release_pending = p.is_pending := by
  cases p <;> rfl

theorem flags_injective : ∀ {p q : Phase}, p.flags = q.flags → p = q := by
  intro p q
  cases p <;> cases q <;> simp [flags]

end Phase

namespace RiscvCpu

/-- The core is in phase `p`. -/
structure At (s : RiscvCpu) (p : Phase) : Prop where
  flags : s.flags = p.flags
  fits : p.Fits s.decoded

variable {s : RiscvCpu} {p : Phase}

theorem At.unique {q : Phase} (h : s.At p) (h' : s.At q) : p = q :=
  Phase.flags_injective (h.flags.symm.trans h'.flags)

theorem At.reset : RiscvCpu.reset.At .waiting := ⟨rfl, trivial⟩

/-- The control state, flag by flag. -/
theorem At.fields (h : s.At p) :
    s.pc_release_pending = p.flags.pc_release_pending ∧
    s.pc_stall_released = p.flags.pc_stall_released ∧
    s.decoded_valid = p.flags.decoded_valid ∧
    s.alu_result_valid = p.flags.alu_result_valid ∧
    s.next_pc_valid = p.flags.next_pc_valid ∧
    s.memory_arbiter.state = p.flags.arbiter_state ∧
    s.memory_arbiter.load_store_result_valid = p.flags.load_store_result_valid := by
  have hf := h.flags
  simp only [RiscvCpu.flags, ← hf, and_self]

/-! ### Handshakes of the chain in each phase -/

section handshakes
variable (i : Input)

theorem At.pc_valid (h : s.At p) :
    s.pc_valid i = match p with
      | .waiting => !i.cm.cm_pc_stall
      | .fetch_addr => true
      | _ => false := by
  obtain ⟨hp, hr, -⟩ := h.fields
  unfold RiscvCpu.pc_valid
  rw [hp, hr]
  cases p <;> simp [Phase.flags]

theorem At.pc_transaction (h : s.At p) :
    s.pc_transaction i = match p with
      | .waiting => !i.cm.cm_pc_stall && i.m_axi.arready
      | .fetch_addr => i.m_axi.arready
      | _ => false := by
  obtain ⟨-, -, -, -, -, ha, -⟩ := h.fields
  have hv := h.pc_valid i
  unfold RiscvCpu.pc_transaction RiscvCpu.pc_ready MemoryArbiter.pc_ready
  rw [ha]
  cases p <;> simp_all [Phase.flags, arbiter_input]

theorem At.next_pc_transaction (h : s.At p) :
    s.next_pc_transaction = (p == .next_pc) := by
  obtain ⟨hp, -, -, -, hn, -, -⟩ := h.fields
  unfold RiscvCpu.next_pc_transaction next_pc_ready
  rw [hp, hn]
  cases p <;> rfl

theorem At.instruction_valid (h : s.At p) :
    s.instruction_valid i = (p == .fetch_data && i.m_axi.rvalid) := by
  obtain ⟨-, -, -, -, -, ha, -⟩ := h.fields
  unfold RiscvCpu.instruction_valid MemoryArbiter.instruction_valid
  rw [ha]
  cases p <;> simp [Phase.flags, arbiter_input]

theorem At.decoded_transaction (h : s.At p) :
    s.decoded_transaction i = (p == .decoded) := by
  obtain ⟨-, -, hd, -, -, ha, -⟩ := h.fields
  have hv := h.pc_valid i
  unfold RiscvCpu.decoded_transaction decoded_ready MemoryArbiter.load_store_ready
  -- the arbiter is idle and no fetch competes, so a load or store is taken at once
  rw [ha, hd]
  cases p <;> simp_all [Phase.flags, arbiter_input]

theorem At.execute_result_valid (h : s.At p) :
    s.execute_result_valid = (p == .alu_result || p == .mem_result) := by
  obtain ⟨-, -, -, hl, -, -, hr⟩ := h.fields
  have hfits := h.fits
  unfold RiscvCpu.execute_result_valid
  -- `Fits` excludes an ALU result for a load and a load result for an ADD
  rw [hl, hr]
  cases p <;> simp_all [Phase.flags, Phase.Fits]

/-- What the arbiter sees of the chain in each phase. -/
theorem At.load_store_valid (h : s.At p) :
    (s.arbiter_input i).load_store_valid = (p == .decoded && s.decoded.use_mem) := by
  obtain ⟨-, -, hd, -⟩ := h.fields
  unfold arbiter_input
  rw [hd]
  cases p <;> rfl

theorem At.next_arbiter_state (h : s.At p) :
    s.memory_arbiter.next_state (s.arbiter_input i) =
      (p.next s.decoded i).flags.arbiter_state := by
  obtain ⟨-, -, -, -, -, ha, -⟩ := h.fields
  have hv : (s.arbiter_input i).pc_valid = _ := h.pc_valid i
  have hl := h.load_store_valid i
  have hm : (s.arbiter_input i).m_axi = i.m_axi := rfl
  have hr : (s.arbiter_input i).instruction_ready = true := rfl
  have hw : (s.arbiter_input i).load_store_is_write = s.decoded.mem_is_write := rfl
  -- both sides branch on the same inputs: split the sequencer, then evaluate
  generalize hq : p.next s.decoded i = q
  simp only [MemoryArbiter.next_state, MemoryArbiter.arvalid, MemoryArbiter.load_store_ready,
    ha, hm, hr, hw, hl, hv]
  cases p <;> simp only [Phase.next] at hq <;> (repeat' split at hq) <;> subst hq <;>
    simp_all [Phase.flags]

/-- The result pulse follows the completion of a load or a store. -/
theorem At.next_result_valid (h : s.At p) :
    (s.memory_arbiter.next (s.arbiter_input i)).load_store_result_valid =
      (p.next s.decoded i).flags.load_store_result_valid := by
  obtain ⟨-, -, -, -, -, ha, -⟩ := h.fields
  have hn := h.next_arbiter_state i
  generalize hq : p.next s.decoded i = q at hn
  simp only [MemoryArbiter.next, hn, ha]
  cases p <;> simp only [Phase.next] at hq <;> (repeat' split at hq) <;> subst hq <;>
    simp [Phase.flags]

end handshakes

/-! ### The refinement -/

/-- One clock edge moves the token as the sequencer does. -/
theorem At.next (h : s.At p) (i : Input) : (s.next i).At (p.next s.decoded i) := by
  obtain ⟨hp, hr, hd, hl, hn, ha, hv⟩ := h.fields
  have hfits := h.fits
  have hpc := h.pc_transaction i
  have hnpc := h.next_pc_transaction
  have hins := h.instruction_valid i
  have hdec := h.decoded_transaction i
  have hexe := h.execute_result_valid
  have harb := h.next_arbiter_state i
  have hres := h.next_result_valid i
  -- the latched instruction changes at the end of the fetch only
  have hdecoded : p ≠ .fetch_data → (s.next i).decoded = s.decoded := by
    intro hne
    have hlat : (s.next i).instruction_latched = s.instruction_latched := by
      simp [RiscvCpu.next, hins, hne]
    simp only [RiscvCpu.decoded, hlat]
  refine ⟨?_, ?_⟩
  · have hstate : (s.next i).memory_arbiter.state = _ := harb
    have hvalid : (s.next i).memory_arbiter.load_store_result_valid = _ := hres
    simp only [RiscvCpu.flags, hstate, hvalid]
    simp only [RiscvCpu.next, pc_release_pending', pc_stall_released', decoded_valid',
      alu_result_valid', next_pc_valid', hp, hr, hd, hl, hn, hpc, hnpc, hins, hdec, hexe]
    generalize hq : p.next s.decoded i = q
    cases p <;> simp only [Phase.next] at hq <;> (repeat' split at hq) <;> subst hq <;>
      simp_all [Phase.flags, Phase.Fits]
  · cases p with
    -- the phases after a fetch assume nothing about the new instruction
    | fetch_data => simp only [Phase.next]; split <;> trivial
    | _ =>
      rw [hdecoded (by simp)]
      simp only [Phase.next]
      (repeat' split) <;> simp_all [Phase.Fits]

end RiscvCpu

end RiscvWorker
