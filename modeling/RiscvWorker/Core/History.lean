import RiscvWorker.Core.ClockEdge

/-! # The history of the memory port

  Every handshake on the memory port belongs to one instruction. Up to any
  cycle of any run, the history is a concatenation of blocks, one for each
  retired instruction and in their order, followed by the beginning of the
  block of the instruction in flight. The slave and the control module are
  arbitrary.
-/

namespace RiscvWorker

open AxiLite (Master Slave aw_handshake w_handshake b_handshake ar_handshake r_handshake)

/-- A transfer on one of the five channels. -/
inductive Transfer where
  | ar (addr : Word)
  | r (data : Word)
  | aw (addr : Word)
  | w (data : Word) (strb : BitVec 4)
  | b
  deriving DecidableEq, Repr

/-- The transfers of one cycle. -/
def transfers (m : Master) (s : Slave) : List Transfer :=
  (if ar_handshake m s then [.ar m.araddr] else []) ++
  (if r_handshake m s then [.r s.rdata] else []) ++
  (if aw_handshake m s then [.aw m.awaddr] else []) ++
  (if w_handshake m s then [.w m.wdata m.wstrb] else []) ++
  (if b_handshake m s then [.b] else [])

/-- The transfers of one instruction `w`: its fetch, and for a load or store
    its access. Address and data of a store may be accepted in either order. -/
inductive Block (w : Word) : List Transfer → Prop where
  | other (pc : Word) : (instruction_decode w).use_mem = false → Block w [.ar pc, .r w]
  | load (pc a d : Word) : (instruction_decode w).use_mem = true →
      (instruction_decode w).mem_is_write = false → Block w [.ar pc, .r w, .ar a, .r d]
  | store (pc a d : Word) (strb : BitVec 4) : (instruction_decode w).use_mem = true →
      (instruction_decode w).mem_is_write = true →
      Block w [.ar pc, .r w, .aw a, .w d strb, .b]
  | store_data_first (pc a d : Word) (strb : BitVec 4) : (instruction_decode w).use_mem = true →
      (instruction_decode w).mem_is_write = true →
      Block w [.ar pc, .r w, .w d strb, .aw a, .b]

/-- The transfers of the instruction in flight up to phase `p`; `w` is the
    instruction register. -/
def InFlight (w : Word) (p : Phase) (tail : List Transfer) : Prop :=
  match p with
  | .waiting | .fetch_addr => tail = []
  | .fetch_data => ∃ pc, tail = [.ar pc]
  | .decoded | .alu_result | .load_addr | .store_both => ∃ pc, tail = [.ar pc, .r w]
  | .load_data => ∃ pc a, tail = [.ar pc, .r w, .ar a]
  | .store_addr => ∃ pc d strb, tail = [.ar pc, .r w, .w d strb]
  | .store_data => ∃ pc a, tail = [.ar pc, .r w, .aw a]
  | .store_resp => ∃ pc a d strb,
      tail = [.ar pc, .r w, .aw a, .w d strb] ∨ tail = [.ar pc, .r w, .w d strb, .aw a]
  | .mem_result | .next_pc => Block w tail

namespace RiscvCpu

/-- The core in an arbitrary environment. -/
def system : Lts.System RiscvCpu Input where
  init s := s = reset
  step s i s' := s' = s.next i

/-- The transfers of one cycle on the memory port. -/
def port_transfers (s : RiscvCpu) (i : Input) : List Transfer := transfers (s.m_axi i) i.m_axi

/-- The instruction that retires in this cycle. -/
def retired_instruction (s : RiscvCpu) (_ : Input) : List Word :=
  if s.next_pc_transaction then [s.instruction_latched] else []

/-- The transfers of a cycle, phase by phase. -/
def phase_transfers (s : RiscvCpu) (i : Input) : Phase → List Transfer
  | .waiting => if !i.cm.cm_pc_stall && i.m_axi.arready then [.ar s.pc] else []
  | .fetch_addr => if i.m_axi.arready then [.ar s.pc] else []
  | .fetch_data | .load_data => if i.m_axi.rvalid then [.r i.m_axi.rdata] else []
  | .load_addr => if i.m_axi.arready then [.ar s.mem_addr] else []
  | .store_both =>
    (if i.m_axi.awready then [.aw s.mem_addr] else []) ++
      (if i.m_axi.wready then [.w s.mem_write_data s.mem_write_strobe] else [])
  | .store_addr => if i.m_axi.awready then [.aw s.mem_addr] else []
  | .store_data => if i.m_axi.wready then [.w s.mem_write_data s.mem_write_strobe] else []
  | .store_resp => if i.m_axi.bvalid then [.b] else []
  | .decoded | .alu_result | .mem_result | .next_pc => []

variable {s : RiscvCpu} {p : Phase}

theorem At.port_transfers (h : s.At p) (i : Input) :
    s.port_transfers i = s.phase_transfers i p := by
  rw [RiscvCpu.port_transfers, h.m_axi, transfers]
  cases p with
  | waiting =>
    cases hst : i.cm.cm_pc_stall <;>
      simp [port, phase_transfers, hst, Master.idle, ar_handshake, r_handshake, aw_handshake,
        w_handshake, b_handshake]
  | _ =>
    simp [port, phase_transfers, Master.idle, ar_handshake, r_handshake, aw_handshake,
      w_handshake, b_handshake]

/-- A cycle adds its transfers to the block of the instruction in flight. -/
theorem At.in_flight_next (h : s.At p) (i : Input) (hp : p ≠ .next_pc) {tail : List Transfer}
    (ht : InFlight s.instruction_latched p tail) :
    InFlight (s.next i).instruction_latched (p.next s.decoded i) (tail ++ s.port_transfers i) := by
  have hins := h.instruction_latched_next i
  have hfits := h.fits
  rw [h.port_transfers, hins]
  cases p with
  | waiting =>
    obtain rfl : tail = [] := ht
    simp only [Phase.next, phase_transfers]
    cases i.cm.cm_pc_stall with
    | true => rfl
    | false =>
      cases i.m_axi.arready with
      | true => exact ⟨s.pc, rfl⟩
      | false => rfl
  | fetch_addr =>
    obtain rfl : tail = [] := ht
    simp only [Phase.next, phase_transfers]
    cases i.m_axi.arready with
    | true => exact ⟨s.pc, rfl⟩
    | false => rfl
  | fetch_data =>
    obtain ⟨pc, rfl⟩ := ht
    simp only [Phase.next, phase_transfers]
    cases i.m_axi.rvalid with
    | true => exact ⟨pc, rfl⟩
    | false => exact ⟨pc, rfl⟩
  | decoded =>
    -- no transfer; the three phases that may follow have the same history
    obtain ⟨pc, rfl⟩ := ht
    rw [if_neg (by simp)]
    simp only [Phase.next, phase_transfers]
    repeat' split
    all_goals exact ⟨pc, rfl⟩
  | alu_result =>
    -- without a memory access the fetch is the whole block
    obtain ⟨pc, rfl⟩ := ht
    exact .other pc hfits
  | load_addr =>
    obtain ⟨pc, rfl⟩ := ht
    simp only [Phase.next, phase_transfers]
    cases i.m_axi.arready with
    | true => exact ⟨pc, s.mem_addr, rfl⟩
    | false => exact ⟨pc, rfl⟩
  | load_data =>
    obtain ⟨pc, a, rfl⟩ := ht
    simp only [Phase.next, phase_transfers]
    cases i.m_axi.rvalid with
    | true => exact .load pc a i.m_axi.rdata hfits.1 hfits.2
    | false => exact ⟨pc, a, rfl⟩
  | store_both =>
    obtain ⟨pc, rfl⟩ := ht
    simp only [Phase.next, phase_transfers]
    -- neither, the data, the address, or both are accepted
    cases i.m_axi.awready <;> cases i.m_axi.wready
    · exact ⟨pc, rfl⟩
    · exact ⟨pc, s.mem_write_data, s.mem_write_strobe, rfl⟩
    · exact ⟨pc, s.mem_addr, rfl⟩
    · exact ⟨pc, s.mem_addr, s.mem_write_data, s.mem_write_strobe, Or.inl rfl⟩
  | store_addr =>
    obtain ⟨pc, d, strb, rfl⟩ := ht
    simp only [Phase.next, phase_transfers]
    cases i.m_axi.awready with
    | true => exact ⟨pc, s.mem_addr, d, strb, Or.inr rfl⟩
    | false => exact ⟨pc, d, strb, rfl⟩
  | store_data =>
    obtain ⟨pc, a, rfl⟩ := ht
    simp only [Phase.next, phase_transfers]
    cases i.m_axi.wready with
    | true => exact ⟨pc, a, s.mem_write_data, s.mem_write_strobe, Or.inl rfl⟩
    | false => exact ⟨pc, a, rfl⟩
  | store_resp =>
    obtain ⟨pc, a, d, strb, hb⟩ := ht
    simp only [Phase.next, phase_transfers]
    cases i.m_axi.bvalid with
    | true =>
      rcases hb with rfl | rfl
      · exact .store pc a d strb hfits.1 hfits.2
      · exact .store_data_first pc a d strb hfits.1 hfits.2
    | false =>
      rcases hb with rfl | rfl
      · exact ⟨pc, a, d, strb, Or.inl rfl⟩
      · exact ⟨pc, a, d, strb, Or.inr rfl⟩
  | mem_result =>
    have hb : Block s.instruction_latched tail := ht
    simp only [phase_transfers, List.append_nil]
    exact hb
  | next_pc => exact absurd rfl hp

/-- The history up to cycle `k` of a run. -/
structure History (e : Lts.Execution RiscvCpu Input) (k : Nat) (p : Phase)
    (blocks : List (List Transfer)) (tail : List Transfer) : Prop where
  at_phase : (e.states k).At p
  /-- One block for each retired instruction. -/
  retired : List.Forall₂ Block (e.log retired_instruction k) blocks
  in_flight : InFlight (e.states k).instruction_latched p tail
  log : e.log port_transfers k = blocks.flatten ++ tail

theorem History.next {e : Lts.Execution RiscvCpu Input} (hv : system.valid_exec e) {k : Nat}
    {blocks : List (List Transfer)} {tail : List Transfer} (h : History e k p blocks tail) :
    ∃ p' blocks' tail', History e (k + 1) p' blocks' tail' := by
  have hs : e.states (k + 1) = (e.states k).next (e.labels k) := hv.2 k
  have hat := h.at_phase.next (e.labels k)
  have hn := h.at_phase.next_pc_transaction
  rw [← hs] at hat
  by_cases hp : p = .next_pc
  · -- the block in flight becomes the block of a retired instruction
    subst hp
    refine ⟨.waiting, blocks ++ [tail], [], hat, ?_, rfl, ?_⟩
    · have hret : retired_instruction (e.states k) (e.labels k) =
          [(e.states k).instruction_latched] := by
        unfold retired_instruction
        rw [hn]
        rfl
      rw [e.log_succ, hret]
      exact List.rel_append h.retired (.cons h.in_flight .nil)
    · have hnone : (e.states k).port_transfers (e.labels k) = [] :=
        h.at_phase.port_transfers (e.labels k)
      rw [e.log_succ, hnone, h.log]
      simp
  · -- the block in flight grows by the transfers of this cycle
    refine ⟨_, blocks, tail ++ (e.states k).port_transfers (e.labels k), hat, ?_, ?_, ?_⟩
    · have hret : retired_instruction (e.states k) (e.labels k) = [] := by
        unfold retired_instruction
        rw [hn, if_neg (by simpa using hp)]
      rw [e.log_succ, hret, List.append_nil]
      exact h.retired
    · rw [hs]
      exact h.at_phase.in_flight_next (e.labels k) hp h.in_flight
    · rw [e.log_succ, h.log, List.append_assoc]

/-- What the instruction in flight has transferred can be completed to the
    block of one instruction. -/
theorem At.in_flight_block (h : s.At p) {tail : List Transfer}
    (ht : InFlight s.instruction_latched p tail) : ∃ w rest, Block w (tail ++ rest) := by
  have hfits := h.fits
  -- a fetched instruction decides which block it begins
  have hfetched : ∀ pc, ∃ rest, Block s.instruction_latched
      ([.ar pc, .r s.instruction_latched] ++ rest) := by
    intro pc
    cases hm : s.decoded.use_mem with
    | false => exact ⟨[], .other pc hm⟩
    | true =>
      cases hw : s.decoded.mem_is_write with
      | false => exact ⟨[.ar 0, .r 0], .load pc 0 0 hm hw⟩
      | true => exact ⟨[.aw 0, .w 0 0, .b], .store pc 0 0 0 hm hw⟩
  -- before that, any block will do
  have hnothing : ∃ w rest, Block w ([] ++ rest) :=
    ⟨0#32, [.ar 0, .r 0], .other 0 (by decide)⟩
  cases p with
  | waiting | fetch_addr =>
    obtain rfl : tail = [] := ht
    exact hnothing
  | fetch_data =>
    obtain ⟨pc, rfl⟩ := ht
    exact ⟨0#32, [.r 0], .other pc (by decide)⟩
  | decoded | alu_result | load_addr | store_both =>
    obtain ⟨pc, rfl⟩ := ht
    exact ⟨_, hfetched pc⟩
  | load_data =>
    obtain ⟨pc, a, rfl⟩ := ht
    exact ⟨s.instruction_latched, [.r 0], .load pc a 0 hfits.1 hfits.2⟩
  | store_addr =>
    obtain ⟨pc, d, strb, rfl⟩ := ht
    exact ⟨s.instruction_latched, [.aw 0, .b], .store_data_first pc 0 d strb hfits.1 hfits.2⟩
  | store_data =>
    obtain ⟨pc, a, rfl⟩ := ht
    exact ⟨s.instruction_latched, [.w 0 0, .b], .store pc a 0 0 hfits.1 hfits.2⟩
  | store_resp =>
    obtain ⟨pc, a, d, strb, rfl | rfl⟩ := ht
    · exact ⟨s.instruction_latched, [.b], .store pc a d strb hfits.1 hfits.2⟩
    · exact ⟨s.instruction_latched, [.b], .store_data_first pc a d strb hfits.1 hfits.2⟩
  | mem_result | next_pc =>
    exact ⟨s.instruction_latched, [], by rw [List.append_nil]; exact ht⟩

theorem history {e : Lts.Execution RiscvCpu Input} (hv : system.valid_exec e) (k : Nat) :
    ∃ p blocks tail, History e k p blocks tail := by
  induction k with
  | zero =>
    have hinit : e.states 0 = reset := hv.1
    refine ⟨.waiting, [], [], ?_, .nil, rfl, rfl⟩
    rw [hinit]
    exact At.reset
  | succ k ih =>
    obtain ⟨p, blocks, tail, h⟩ := ih
    exact h.next hv

/-- In every cycle of a run the core is in one of the phases. -/
theorem at_phase {e : Lts.Execution RiscvCpu Input} (hv : system.valid_exec e) (k : Nat) :
    ∃ p, (e.states k).At p := by
  obtain ⟨p, _, _, h⟩ := history hv k
  exact ⟨p, h.at_phase⟩

/-- Every transfer on the memory port happens once, for one instruction, in
    program order: up to any cycle the history is one block for each retired
    instruction, followed by the beginning of one more block, of the
    instruction in flight. -/
theorem every_transfer_once {e : Lts.Execution RiscvCpu Input} (hv : system.valid_exec e)
    (k : Nat) :
    ∃ p blocks tail, History e k p blocks tail ∧ ∃ w rest, Block w (tail ++ rest) := by
  obtain ⟨p, blocks, tail, h⟩ := history hv k
  exact ⟨p, blocks, tail, h, h.at_phase.in_flight_block h.in_flight⟩

/-- A slave that is always ready and answers every read with a store
    (`sw x0, 0(x0)`). -/
def store_slave : Input where
  m_axi :=
    { Slave.idle with
      awready := true, wready := true, bvalid := true
      arready := true, rvalid := true, rdata := 0x00002023#32 }
  cm :=
    { cm_pc_stall := false, cm_pc_we := false, cm_pc_write_data := 0#32
      cm_regfile_addr := 0#5, cm_regfile_we := false, cm_regfile_write_data := 0#32
      cm_regfile_fault_addr := 0#5, cm_regfile_fault_mode := 0#2
      cm_regfile_fault_mask := 0#32, cm_regfile_fault_enable := false }

/-- Eight cycles of stores: one block, and the next fetch. -/
theorem every_transfer_once_store :
    (∃ p blocks tail, History (.of_inputs next reset fun _ => store_slave) 8 p blocks tail ∧
      ∃ w rest, Block w (tail ++ rest)) ∧
    (Lts.Execution.of_inputs next reset fun _ => store_slave).log port_transfers 8 =
      [.ar 0x1000#32, .r 0x00002023#32, .aw 0#32, .w 0#32 0b1111#4, .b, .ar 0x1004#32] := by
  have hv : system.valid_exec (.of_inputs next reset fun _ => store_slave) := ⟨rfl, fun _ => rfl⟩
  exact ⟨every_transfer_once hv 8, by decide +kernel⟩

end RiscvCpu

end RiscvWorker
