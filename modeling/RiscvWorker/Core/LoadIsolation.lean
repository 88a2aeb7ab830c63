import RiscvWorker.Core.Execution
import RiscvWorker.Core.History

/-! # What a load's result depends on

  `byte_reader` leaves its shifted data unassigned for a byte mask that does
  not fit the width, and `load_store_decoder` selects no lane for a half word
  at an odd address. There the register gets what an earlier instruction left
  in the latch. For every other load the result is a function of the address
  and of the word that memory returned.

  The address is the one the core computes when the load retires; a debug
  write to the base register while the load is under way would change it
  after the request.
-/

namespace RiscvWorker

open Rv32i (LoadOp)

/-! ### The value of a load -/

/-- A half word at an odd address. -/
def odd_half (op : LoadOp) (a : Word) : Prop :=
  (op = .lh ∨ op = .lhu) ∧ a.getLsbD 0 = true

section value
variable {w : Word} {op : LoadOp} (h : Rv32i.load_op w = some op)
include h

/-- The width of a load is its func3 field. -/
theorem load_op_funct3 {w' : Word} (h' : Rv32i.load_op w' = some op) :
    Rv32i.funct3 w = Rv32i.funct3 w' := by
  unfold Rv32i.load_op at h h'
  split at h <;> cases h <;> split at h' <;> simp_all

/-- The loaded word is extended without the help of the latch. -/
theorem wb_data_congr (l l' v : Word) :
    ByteReader.wb_data l v (Rv32i.funct3 w) = ByteReader.wb_data l' v (Rv32i.funct3 w) := by
  unfold Rv32i.load_op at h
  split at h <;> cases h
  all_goals
    rename_i h3
    rw [h3]
    rfl

/-- The shifted data is assigned for every load but an odd half word. -/
theorem shifted_data_congr {a : Word} (ha : ¬ odd_half op a) (l l' d : Word) :
    ByteReader.shifted_data l d (Rv32i.funct3 w)
        (LoadStoreDecoder.byte_enb a (Rv32i.funct3 w)) =
      ByteReader.shifted_data l' d (Rv32i.funct3 w)
        (LoadStoreDecoder.byte_enb a (Rv32i.funct3 w)) := by
  have heven : op = .lh ∨ op = .lhu → a.toNat % 2 = 0 := by
    intro hhalf
    by_contra hodd
    apply ha
    refine ⟨hhalf, ?_⟩
    rw [BitVec.getLsbD, Nat.testBit_zero, decide_eq_true_iff]
    omega
  unfold Rv32i.load_op at h
  -- LB, LH, LW, LBU, LHU
  split at h <;> cases h
  · rename_i h3
    rw [shifted_byte _ _ _ (Or.inl h3), shifted_byte _ _ _ (Or.inl h3)]
  · rename_i h3
    rw [shifted_half _ _ (heven (Or.inl rfl)) (Or.inl h3),
      shifted_half _ _ (heven (Or.inl rfl)) (Or.inl h3)]
  · -- a word is masked, but never shifted
    rename_i h3
    rw [h3]
    rfl
  · rename_i h3
    rw [shifted_byte _ _ _ (Or.inr h3), shifted_byte _ _ _ (Or.inr h3)]
  · rename_i h3
    rw [shifted_half _ _ (heven (Or.inr rfl)) (Or.inr h3),
      shifted_half _ _ (heven (Or.inr rfl)) (Or.inr h3)]

/-- An odd half word selects no lane, and the latch shines through. -/
theorem shifted_data_odd_half {a : Word} (ha : odd_half op a) (l d : Word) :
    ByteReader.shifted_data l d (Rv32i.funct3 w)
      (LoadStoreDecoder.byte_enb a (Rv32i.funct3 w)) = l := by
  obtain ⟨hhalf, hodd⟩ := ha
  have hf : Rv32i.funct3 w = F3_HALF_WORD ∨ Rv32i.funct3 w = F3_HALF_WORD_U := by
    unfold Rv32i.load_op at h
    split at h <;> cases h
    · exact absurd hhalf (by decide)
    · exact Or.inl ‹_›
    · exact absurd hhalf (by decide)
    · exact absurd hhalf (by decide)
    · exact Or.inr ‹_›
  -- offsets 1 and 3
  have hne : ∀ v : BitVec 2, v.getLsbD 0 = false → a.extractLsb' 0 2 ≠ v := by
    intro v hv hc
    have hbit := congrArg (fun x => BitVec.getLsbD x 0) hc
    rw [BitVec.getLsbD_extractLsb', Nat.zero_add, hodd, hv] at hbit
    exact absurd hbit (by decide)
  have hmask : LoadStoreDecoder.byte_enb a (Rv32i.funct3 w) = 0b0000#4 := by
    unfold LoadStoreDecoder.byte_enb
    have hb : ¬ (Rv32i.funct3 w = F3_BYTE ∨ Rv32i.funct3 w = F3_BYTE_U) := by
      rcases hf with hf | hf <;> rw [hf] <;> decide
    rw [if_neg hb, if_pos hf, if_neg (hne _ (by decide)), if_neg (hne _ (by decide))]
  rw [hmask]
  rcases hf with hf | hf <;> rw [hf] <;> rfl

end value

namespace RiscvCpu

/-! ### The load that retires -/

/-- The word transferred on the read data channel in this cycle. -/
def read_words (s : RiscvCpu) (i : Input) : List Word :=
  if AxiLite.r_handshake (s.m_axi i) i.m_axi then [i.m_axi.rdata] else []

/-- In cycle `k` a load retires whose address is `a` and for which memory has
    returned `d`, the last word read on the port. -/
structure RetiresLoad (e : Lts.Execution RiscvCpu Input) (k : Nat) (op : LoadOp) (a d : Word) :
    Prop where
  retires : (e.states k).next_pc_transaction = true
  opcode : InstructionDecode.opcode (e.states k).instruction_latched = OPCODE_LOAD
  op : Rv32i.load_op (e.states k).instruction_latched = some op
  address : (e.states k).rs1 + (e.states k).decoded.imm = a
  word : (e.log read_words k).getLast? = some d

/-- The value that write back stores in cycle `k`. -/
def written (e : Lts.Execution RiscvCpu Input) (k : Nat) : Word :=
  ((e.states k).register_file_input (e.labels k)).write_data

section load
variable {s : RiscvCpu} {p : Phase}

theorem At.read_words (h : s.At p) (i : Input) :
    s.read_words i =
      if (p = .fetch_data ∨ p = .load_data) ∧ i.m_axi.rvalid = true then [i.m_axi.rdata]
      else [] := by
  rw [RiscvCpu.read_words, h.m_axi, AxiLite.r_handshake]
  cases p <;> cases i.m_axi.rvalid <;> simp [port, AxiLite.Master.idle]

/-- The value of a load in terms of its access and of the latches. -/
theorem write_back_load (hop : InstructionDecode.opcode s.instruction_latched = OPCODE_LOAD) :
    s.write_back_data =
      ByteReader.wb_data s.latched_wb
        (ByteReader.shifted_data s.latched_shifted s.memory_arbiter.load_data
          (Rv32i.funct3 s.instruction_latched)
          (LoadStoreDecoder.byte_enb (s.rs1 + s.decoded.imm)
            (Rv32i.funct3 s.instruction_latched)))
        (Rv32i.funct3 s.instruction_latched) := by
  have hd : s.decoded = _ := decode_load hop
  have halu : s.alu_out = s.rs1 + s.decoded.imm := by
    rw [alu_out_add (by rw [hd]), alu_src1, alu_src2, hd]
    simp
  rw [write_back_data, mem_wb_data, shifted_data, mem_write_strobe, halu, hd]
  simp

end load

section run
variable {e : Lts.Execution RiscvCpu Input} (hv : system.valid_exec e)
include hv

/-- When the result of a load is there, it is the last word read. -/
theorem load_data_last {k : Nat} {p : Phase} (hat : (e.states k).At p)
    (hp : p = .mem_result ∨ p = .next_pc) (hmem : (e.states k).decoded.use_mem = true)
    (hw : (e.states k).decoded.mem_is_write = false) :
    (e.log read_words k).getLast? = some (e.states k).memory_arbiter.load_data := by
  induction k generalizing p with
  | zero =>
    have hinit : e.states 0 = reset := hv.1
    rw [hinit] at hat
    obtain rfl : p = .waiting := hat.unique At.reset
    rcases hp with hp | hp <;> exact absurd hp (by decide)
  | succ k ih =>
    obtain ⟨q, hatq⟩ := at_phase hv k
    have hs : e.states (k + 1) = (e.states k).next (e.labels k) := hv.2 k
    have hnext := hatq.next (e.labels k)
    have hdata := hatq.load_data_next (e.labels k)
    have hwords := hatq.read_words (e.labels k)
    rw [← hs] at hnext hdata
    have hpq := hat.unique hnext
    -- the instruction is the one of the previous cycle
    have hq : q ≠ .fetch_data := by
      rintro rfl
      rw [Phase.next] at hpq
      split at hpq <;> rcases hp with hp | hp <;> exact absurd (hp.symm.trans hpq) (by decide)
    have hdec : (e.states (k + 1)).decoded = (e.states k).decoded := by
      rw [hs]
      exact hatq.decoded_next hq
    rw [hdec] at hmem hw
    have hfits := hatq.fits
    rw [e.log_succ, hwords, hdata]
    by_cases hload : q = .load_data ∧ (e.labels k).m_axi.rvalid = true
    · rw [if_pos hload, if_pos ⟨Or.inr hload.1, hload.2⟩]
      simp
    · have hnone : ¬ ((q = .fetch_data ∨ q = .load_data) ∧ (e.labels k).m_axi.rvalid = true) :=
        fun hc => hload ⟨hc.1.resolve_left hq, hc.2⟩
      rw [if_neg hload, if_neg hnone, List.append_nil]
      -- the result was there in the previous cycle already
      have hq' : q = .mem_result ∨ q = .next_pc := by
        cases q <;> simp only [Phase.next] at hpq <;> (repeat' split at hpq) <;>
          simp_all [Phase.Fits]
      exact ih hatq hq' hmem hw

theorem RetiresLoad.load_data {k : Nat} {op : LoadOp} {a d : Word} (h : RetiresLoad e k op a d) :
    (e.states k).memory_arbiter.load_data = d := by
  obtain ⟨p, hat⟩ := at_phase hv k
  have hp : p = .next_pc := by
    have hn := hat.next_pc_transaction
    rw [h.retires] at hn
    simpa using hn.symm
  have hd : (e.states k).decoded = _ := decode_load h.opcode
  have hlast := load_data_last hv hat (Or.inr hp) (by rw [hd]) (by rw [hd])
  rw [h.word] at hlast
  exact (Option.some.inj hlast).symm

/-- What a load writes. -/
theorem RetiresLoad.written_eq {k : Nat} {op : LoadOp} {a d : Word}
    (h : RetiresLoad e k op a d) :
    written e k =
      ByteReader.wb_data (e.states k).latched_wb
        (ByteReader.shifted_data (e.states k).latched_shifted d
          (Rv32i.funct3 (e.states k).instruction_latched)
          (LoadStoreDecoder.byte_enb a (Rv32i.funct3 (e.states k).instruction_latched)))
        (Rv32i.funct3 (e.states k).instruction_latched) := by
  have hval := write_back_load h.opcode
  rw [h.load_data hv, h.address] at hval
  exact hval

end run

/-! ### A load of seven cycles

  What follows builds two runs that end in the same odd half word. -/

/-- A load `w` from `waiting` on, with a ready slave that returns `d`, and
    without writes of the control module. -/
structure LoadWindow (e : Lts.Execution RiscvCpu Input) (k : Nat) (w d : Word) : Prop where
  start : (e.states k).At .waiting
  is_load : InstructionDecode.opcode w = OPCODE_LOAD
  calm : ∀ j, k ≤ j → j < k + 7 → (e.labels j).cm.quiet ∧
    (e.labels j).cm.cm_pc_stall = false ∧ (e.labels j).m_axi.arready = true
  fetched : (e.labels (k + 1)).m_axi.rvalid = true ∧ (e.labels (k + 1)).m_axi.rdata = w
  loaded : (e.labels (k + 4)).m_axi.rvalid = true ∧ (e.labels (k + 4)).m_axi.rdata = d

/-- A cycle of such a load after the fetch. -/
structure Loading (s₀ s : RiscvCpu) (w : Word) (p : Phase) : Prop where
  at_phase : s.At p
  instr : s.instruction_latched = w
  read : s.register_file.read = s₀.register_file.read

section window
variable {e : Lts.Execution RiscvCpu Input} (hv : system.valid_exec e) {k : Nat} {w d : Word}
include hv

/-- A quiet edge keeps the instruction and the registers. -/
theorem Loading.next {s₀ : RiscvCpu} {j : Nat} {p q : Phase} (h : Loading s₀ (e.states j) w p)
    (hq : (e.labels j).cm.quiet) (hp : p ≠ .next_pc) (hfd : p ≠ .fetch_data)
    (hpq : p.next (instruction_decode w) (e.labels j) = q) :
    Loading s₀ (e.states (j + 1)) w q := by
  have hnext := h.at_phase.next (e.labels j)
  rw [RiscvCpu.decoded, h.instr, hpq] at hnext
  rw [hv.2 j]
  refine ⟨hnext, ?_, ?_⟩
  · rw [h.at_phase.instruction_latched_next, if_neg (fun hc => hfd hc.1), h.instr]
  · rw [h.at_phase.read_next_of_quiet hq hp, h.read]

theorem LoadWindow.decoded (h : LoadWindow e k w d) :
    (e.states (k + 1)).At .fetch_data ∧ Loading (e.states k) (e.states (k + 2)) w .decoded := by
  obtain ⟨hq0, hst0, har0⟩ := h.calm k (Nat.le_refl k) (by omega)
  obtain ⟨hq1, -, -⟩ := h.calm (k + 1) (by omega) (by omega)
  have h1 : (e.states (k + 1)).At .fetch_data := by
    have hnext := h.start.next (e.labels k)
    rw [← hv.2 k, Phase.next, hst0, har0] at hnext
    exact hnext
  have h2 : (e.states (k + 2)).At .decoded := by
    have hnext := h1.next (e.labels (k + 1))
    rw [← hv.2 (k + 1), Phase.next, if_pos h.fetched.1] at hnext
    exact hnext
  refine ⟨h1, h2, ?_, ?_⟩
  · rw [hv.2 (k + 1), h1.instruction_latched_next, if_pos ⟨rfl, h.fetched.1⟩, h.fetched.2]
  · rw [hv.2 (k + 1), h1.read_next_of_quiet hq1 (by decide), hv.2 k,
      h.start.read_next_of_quiet hq0 (by decide)]

/-- The state in the cycles after the fetch. -/
theorem LoadWindow.phases (h : LoadWindow e k w d) :
    Loading (e.states k) (e.states (k + 3)) w .load_addr ∧
    Loading (e.states k) (e.states (k + 4)) w .load_data ∧
    Loading (e.states k) (e.states (k + 5)) w .mem_result ∧
    Loading (e.states k) (e.states (k + 6)) w .next_pc := by
  have hd := decode_load h.is_load
  have hq := fun j hj hj' => (h.calm j hj hj').1
  have h2 := (h.decoded hv).2
  obtain ⟨-, -, har⟩ := h.calm (k + 3) (by omega) (by omega)
  have h3 : Loading (e.states k) (e.states (k + 3)) w .load_addr :=
    h2.next hv (hq (k + 2) (by omega) (by omega)) (by decide) (by decide) (by
      rw [hd]
      rfl)
  have h4 : Loading (e.states k) (e.states (k + 4)) w .load_data :=
    h3.next hv (hq (k + 3) (by omega) (by omega)) (by decide) (by decide) (if_pos har)
  have h5 : Loading (e.states k) (e.states (k + 5)) w .mem_result :=
    h4.next hv (hq (k + 4) (by omega) (by omega)) (by decide) (by decide) (if_pos h.loaded.1)
  have h6 : Loading (e.states k) (e.states (k + 6)) w .next_pc :=
    h5.next hv (hq (k + 5) (by omega) (by omega)) (by decide) (by decide) rfl
  exact ⟨h3, h4, h5, h6⟩

/-- The load retires, and the core waits for the next release. -/
theorem LoadWindow.done (h : LoadWindow e k w d) :
    (e.states (k + 6)).memory_arbiter.load_data = d ∧ (e.states (k + 7)).At .waiting ∧
      (e.states (k + 7)).instruction_latched = w ∧
      (e.states (k + 7)).memory_arbiter.load_data = d := by
  obtain ⟨-, h4, h5, h6⟩ := h.phases hv
  have hld5 : (e.states (k + 5)).memory_arbiter.load_data = d := by
    rw [hv.2 (k + 4), h4.at_phase.load_data_next, if_pos ⟨rfl, h.loaded.1⟩, h.loaded.2]
  have hld6 : (e.states (k + 6)).memory_arbiter.load_data = d := by
    rw [hv.2 (k + 5), h5.at_phase.load_data_next, if_neg (by simp), hld5]
  have h7 : (e.states (k + 7)).At .waiting := by
    rw [hv.2 (k + 6)]
    exact h6.at_phase.next (e.labels (k + 6))
  refine ⟨hld6, h7, ?_, ?_⟩
  · rw [hv.2 (k + 6), h6.at_phase.instruction_latched_next, if_neg (by simp), h6.instr]
  · rw [hv.2 (k + 6), h6.at_phase.load_data_next, if_neg (by simp), hld6]

/-- The load of the window, with the base register as it was before. -/
theorem LoadWindow.retires (h : LoadWindow e k w d) {op : LoadOp}
    (hop : Rv32i.load_op w = some op) :
    RetiresLoad e (k + 6) op
      ((e.states k).register_file.read (Rv32i.rs1 w) + Rv32i.imm_i w) d := by
  obtain ⟨-, -, -, h6⟩ := h.phases hv
  have hd : (e.states (k + 6)).decoded = _ := (congrArg instruction_decode h6.instr).trans
    (decode_load h.is_load)
  have hlast := load_data_last hv h6.at_phase (Or.inr rfl) (by rw [hd]) (by rw [hd])
  rw [(h.done hv).1] at hlast
  refine ⟨?_, ?_, ?_, ?_, hlast⟩
  · rw [h6.at_phase.next_pc_transaction]
    rfl
  · rw [h6.instr]
    exact h.is_load
  · rw [h6.instr]
    exact hop
  · rw [RiscvCpu.rs1, hd, h6.read]

/-- An odd half word returns what the latch held when it was fetched. -/
theorem LoadWindow.written_odd_half (h : LoadWindow e k w d) {op : LoadOp}
    (hop : Rv32i.load_op w = some op)
    (hodd : odd_half op ((e.states k).register_file.read (Rv32i.rs1 w) + Rv32i.imm_i w)) :
    written e (k + 6) =
      ByteReader.wb_data (e.states (k + 6)).latched_wb (e.states (k + 1)).shifted_data
        (Rv32i.funct3 w) := by
  -- from the decoded instruction on, the latch does not change
  have hkeep : ∀ j p, Loading (e.states k) (e.states j) w p →
      (e.states (j + 1)).latched_shifted = (e.states j).latched_shifted := by
    intro j p hj
    have hd : (e.states j).decoded = _ := (congrArg instruction_decode hj.instr).trans
      (decode_load h.is_load)
    have halu : (e.states j).alu_out =
        (e.states k).register_file.read (Rv32i.rs1 w) + Rv32i.imm_i w := by
      rw [alu_out_add (by rw [hd]), alu_src1, alu_src2, RiscvCpu.rs1, hd, hj.read]
      simp
    have hshift := shifted_data_odd_half hop hodd (e.states j).latched_shifted
      (e.states j).memory_arbiter.load_data
    rw [hv.2 j]
    show (e.states j).shifted_data = _
    rw [shifted_data, mem_write_strobe, halu, hd]
    exact hshift
  have h2 := (h.decoded hv).2
  obtain ⟨h3, h4, h5, h6⟩ := h.phases hv
  have hfirst : (e.states (k + 2)).latched_shifted = (e.states (k + 1)).shifted_data := by
    rw [hv.2 (k + 1)]
    rfl
  have hlatch : (e.states (k + 6)).latched_shifted = (e.states (k + 1)).shifted_data := by
    rw [hkeep _ _ h5, hkeep _ _ h4, hkeep _ _ h3, hkeep _ _ h2, hfirst]
  rw [(h.retires hv hop).written_eq hv, hlatch, h6.instr, shifted_data_odd_half hop hodd]

end window

/-! ### Two runs -/

/-- Nothing is read out of a zero word and a zero latch. -/
theorem shifted_data_zero {s : RiscvCpu} (hd : s.memory_arbiter.load_data = 0#32)
    (hl : s.latched_shifted = 0#32) : s.shifted_data = 0#32 := by
  have hmask : ∀ m, ByteReader.masked_data 0#32 m = 0#32 := by decide
  rw [shifted_data, hd, hl, ByteReader.shifted_data, hmask]
  repeat' split
  all_goals rfl

/-- Cycle 0 writes `a` to x1 under the stall; then the stall is low, and the
    slave, always ready for an address, returns `word k` in cycle `k`. -/
def answering (a : Word) (word : Nat → Option Word) (k : Nat) : Input where
  m_axi :=
    { AxiLite.Slave.idle with
      arready := true, rvalid := (word k).isSome, rdata := (word k).getD 0#32 }
  cm :=
    { store_slave.cm with
      cm_pc_stall := k == 0, cm_regfile_we := k == 0
      cm_regfile_addr := 1#5, cm_regfile_write_data := a }

/-- `lw x0, 0(x0)` -/
def lw_zero : Word := 0x00002003#32

/-- `lh x2, 0(x1)` and `lhu x2, 0(x1)` -/
def load_half (op : LoadOp) : Word := if op = .lh then 0x00009103#32 else 0x0000D103#32

/-- The load comes first. -/
def fresh (w d : Word) (k : Nat) : Option Word :=
  if k = 2 then some w else if k = 5 then some d else none

/-- A load of the word 1 comes before it. -/
def after_load (w d : Word) (k : Nat) : Option Word :=
  if k = 2 then some lw_zero else if k = 5 then some 1#32
  else if k = 9 then some w else if k = 12 then some d else none

section runs
variable (a : Word) (word : Nat → Option Word)

abbrev answered_run : Lts.Execution RiscvCpu Input := .of_inputs next reset (answering a word)

theorem answered_run_valid : system.valid_exec (answered_run a word) := ⟨rfl, fun _ => rfl⟩

theorem answering_calm {k : Nat} (hk : k ≠ 0) :
    (answering a word k).cm.quiet ∧ (answering a word k).cm.cm_pc_stall = false ∧
      (answering a word k).m_axi.arready = true := by
  have hk' : (k == 0) = false := beq_eq_false_iff_ne.mpr hk
  exact ⟨⟨rfl, hk', rfl⟩, hk', rfl⟩

/-- The window of a load that the slave answers. -/
theorem answered_window {k : Nat} {w d : Word} (hk : k ≠ 0)
    (hat : ((answered_run a word).states k).At .waiting)
    (hop : InstructionDecode.opcode w = OPCODE_LOAD) (hw : word (k + 1) = some w)
    (hd : word (k + 4) = some d) : LoadWindow (answered_run a word) k w d where
  start := hat
  is_load := hop
  calm j hj _ := answering_calm a word (by omega)
  fetched := by
    show (word (k + 1)).isSome = true ∧ (word (k + 1)).getD 0#32 = w
    rw [hw]
    exact ⟨rfl, rfl⟩
  loaded := by
    show (word (k + 4)).isSome = true ∧ (word (k + 4)).getD 0#32 = d
    rw [hd]
    exact ⟨rfl, rfl⟩

/-- The state after the debug write. -/
theorem answered_first :
    ((answered_run a word).states 1).At .waiting ∧
    ((answered_run a word).states 1).register_file.read 1#5 = a ∧
    ((answered_run a word).states 1).memory_arbiter.load_data = 0#32 ∧
    ((answered_run a word).states 1).latched_shifted = 0#32 := by
  refine ⟨At.reset.next (answering a word 0), rfl, ?_, ?_⟩
  · exact (At.reset.load_data_next (answering a word 0)).trans (if_neg (by simp))
  · rw [(answered_run_valid a word).2 0]
    show ((answered_run a word).states 0).shifted_data = 0#32
    exact shifted_data_zero rfl rfl

end runs

/-- x0 is not written. -/
theorem registers_next_of_rd_zero {s : RiscvCpu} {i : Input} (hq : i.cm.quiet)
    (hrd : s.decoded.rd_addr = 0#5) :
    (s.next i).register_file.registers = s.register_file.registers := by
  have hwa : (s.register_file_input i).write_addr = 0#5 := hrd
  have he : (s.register_file_input i).extra_write_enable = false := hq.2.1
  have hf : (s.register_file_input i).fault_write_enable = false := hq.2.2
  simp [RiscvCpu.next, RegisterFile.next, hwa, he, hf]

/-- `lw x0, 0(x0)` passes the loaded word on. -/
theorem shifted_data_lw_zero {s : RiscvCpu} (h : s.instruction_latched = lw_zero) :
    s.shifted_data = s.memory_arbiter.load_data := by
  have hd : s.decoded = instruction_decode lw_zero := congrArg instruction_decode h
  have halu : s.alu_out = 0#32 := by
    rw [alu_out_add (by rw [hd]; rfl), alu_src1, alu_src2, RiscvCpu.rs1, hd]
    rfl
  rw [shifted_data, mem_write_strobe, halu, hd]
  exact shifted_word _ _

section odd
variable {op : LoadOp} {a : Word} (hodd : odd_half op a) (d : Word)
include hodd

theorem load_half_fields :
    InstructionDecode.opcode (load_half op) = OPCODE_LOAD ∧
      Rv32i.load_op (load_half op) = some op ∧ Rv32i.rs1 (load_half op) = 1#5 ∧
      Rv32i.imm_i (load_half op) = 0#32 := by
  rcases hodd.1 with rfl | rfl <;> decide

/-- After reset an odd half word reads as zero. -/
theorem fresh_written :
    RetiresLoad (answered_run a (fresh (load_half op) d)) 7 op a d ∧
      written (answered_run a (fresh (load_half op) d)) 7 = 0#32 := by
  have hv := answered_run_valid a (fresh (load_half op) d)
  obtain ⟨hopc, hop, hrs1, himm⟩ := load_half_fields hodd
  obtain ⟨hat, hx1, hld, hsh⟩ := answered_first a (fresh (load_half op) d)
  have hwin := answered_window a (fresh (load_half op) d) (k := 1) (by decide) hat hopc rfl rfl
  have hret := hwin.retires hv hop
  have haddr : ((answered_run a (fresh (load_half op) d)).states 1).register_file.read
      (Rv32i.rs1 (load_half op)) + Rv32i.imm_i (load_half op) = a := by
    rw [hrs1, himm, hx1, BitVec.add_zero]
  rw [haddr] at hret
  refine ⟨hret, ?_⟩
  -- the latch is still zero when the half word is decoded
  have hzero : ((answered_run a (fresh (load_half op) d)).states 2).shifted_data = 0#32 := by
    refine shifted_data_zero ?_ ?_
    · exact (hat.load_data_next _).trans ((if_neg (by simp)).trans hld)
    · exact shifted_data_zero hld hsh
  have hval := hwin.written_odd_half hv hop (by rw [haddr]; exact hodd)
  rw [hval, hzero]
  rcases hodd.1 with rfl | rfl <;> rfl

/-- After a load of the word 1 it reads as one. -/
theorem after_load_written :
    RetiresLoad (answered_run a (after_load (load_half op) d)) 14 op a d ∧
      written (answered_run a (after_load (load_half op) d)) 14 = 1#32 := by
  have hv := answered_run_valid a (after_load (load_half op) d)
  obtain ⟨hopc, hop, hrs1, himm⟩ := load_half_fields hodd
  obtain ⟨hat, hx1, hld, hsh⟩ := answered_first a (after_load (load_half op) d)
  have hlw := answered_window a (after_load (load_half op) d) (k := 1) (w := lw_zero) (d := 1#32)
    (by decide) hat (by decide) rfl rfl
  obtain ⟨-, hat8, hins8, hld8⟩ := hlw.done hv
  -- the first load has x0 as its destination
  have hx1' : ((answered_run a (after_load (load_half op) d)).states 8).register_file.read
      1#5 = a := by
    have h7 := (hlw.phases hv).2.2.2
    have hd : ((answered_run a (after_load (load_half op) d)).states 7).decoded =
        instruction_decode lw_zero := congrArg instruction_decode h7.instr
    have hkeep : ((answered_run a (after_load (load_half op) d)).states 8).register_file.registers =
        ((answered_run a (after_load (load_half op) d)).states 7).register_file.registers := by
      rw [hv.2 7]
      refine registers_next_of_rd_zero (answering_calm a _ (by decide)).1 ?_
      rw [hd]
      rfl
    rw [read_congr hkeep, h7.read, hx1]
  have hwin :=
    answered_window a (after_load (load_half op) d) (k := 8) (by decide) hat8 hopc rfl rfl
  have hret := hwin.retires hv hop
  have haddr : ((answered_run a (after_load (load_half op) d)).states 8).register_file.read
      (Rv32i.rs1 (load_half op)) + Rv32i.imm_i (load_half op) = a := by
    rw [hrs1, himm, hx1', BitVec.add_zero]
  rw [haddr] at hret
  refine ⟨hret, ?_⟩
  have hone : ((answered_run a (after_load (load_half op) d)).states 9).shifted_data = 1#32 := by
    have hins9 : ((answered_run a (after_load (load_half op) d)).states 9).instruction_latched =
        lw_zero :=
      (hat8.instruction_latched_next _).trans ((if_neg (by simp)).trans hins8)
    rw [shifted_data_lw_zero hins9]
    exact (hat8.load_data_next _).trans ((if_neg (by simp)).trans hld8)
  have hval := hwin.written_odd_half hv hop (by rw [haddr]; exact hodd)
  rw [hval, hone]
  rcases hodd.1 with rfl | rfl <;> rfl

end odd

/-- Two runs that retire a load with the same address and the same word
    write the same value, unless it is a half word at an odd address. -/
theorem load_isolated_iff (op : LoadOp) (a d : Word) :
    (∀ (e₁ e₂ : Lts.Execution RiscvCpu Input) (k₁ k₂ : Nat), system.valid_exec e₁ →
      system.valid_exec e₂ → RetiresLoad e₁ k₁ op a d → RetiresLoad e₂ k₂ op a d →
      written e₁ k₁ = written e₂ k₂) ↔ ¬ odd_half op a := by
  constructor
  · intro hsame hodd
    obtain ⟨h₁, hw₁⟩ := fresh_written hodd d
    obtain ⟨h₂, hw₂⟩ := after_load_written hodd d
    have heq := hsame _ _ 7 14 (answered_run_valid _ _) (answered_run_valid _ _) h₁ h₂
    rw [hw₁, hw₂] at heq
    exact absurd heq (by decide)
  · intro hodd e₁ e₂ k₁ k₂ hv₁ hv₂ h₁ h₂
    rw [h₁.written_eq hv₁, h₂.written_eq hv₂, load_op_funct3 h₁.op h₂.op,
      wb_data_congr h₂.op _ (e₂.states k₂).latched_wb,
      shifted_data_congr h₂.op hodd _ (e₂.states k₂).latched_shifted]

/-- Two runs load the half word at address 1 and get the same word back, but
    one of them returns what an earlier load left behind. -/
theorem odd_half_leaks :
    ¬ ∀ (op : LoadOp) (a d : Word) (e₁ e₂ : Lts.Execution RiscvCpu Input) (k₁ k₂ : Nat),
      system.valid_exec e₁ → system.valid_exec e₂ → RetiresLoad e₁ k₁ op a d →
      RetiresLoad e₂ k₂ op a d → written e₁ k₁ = written e₂ k₂ := by
  intro h
  have hodd : odd_half .lh 1#32 := ⟨Or.inl rfl, rfl⟩
  obtain ⟨h₁, hw₁⟩ := fresh_written hodd 0#32
  obtain ⟨h₂, hw₂⟩ := after_load_written hodd 0#32
  have heq := h .lh 1#32 0#32 _ _ 7 14 (answered_run_valid _ _) (answered_run_valid _ _) h₁ h₂
  rw [hw₁, hw₂] at heq
  exact absurd heq (by decide)

end RiscvCpu

end RiscvWorker
