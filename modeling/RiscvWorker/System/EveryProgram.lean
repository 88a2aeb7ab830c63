import RiscvWorker.Core.EveryWord
import RiscvWorker.System.IsaRun

/-! # Runs of every program

  The run theorem without a supported fragment: the memory may hold anything
  at all. What the core does is then a function of the program, whatever the
  memory's delays are and whenever the stall holds it up. The load unit is
  part of this function, since a load that selects no lane takes what it
  still holds.

  `Follows s p A u`: the core is in phase `p` of the instruction that `A`
  executes next, and its load unit is on the way that starts with `u`. In a
  cycle without a new word the outputs of the unit settle, and settling twice
  is settling once, so the number of cycles does not matter.
-/

namespace RiscvWorker

open AxiLite (Master Slave MemorySlave)
open ByteMemory
open Rv32i (ArchState)

/-! ### The load unit -/

/-- What decides the outputs of `byte_reader`, beside the registers. -/
structure LoadUnit where
  instruction : Word
  load_data : Word
  shifted : Word
  wb : Word

namespace LoadUnit

def boot : LoadUnit := ⟨0#32, 0#32, 0#32, 0#32⟩

/-- The output of the ALU. -/
def alu_out (A : ArchState) (w : Word) : Word :=
  let d := instruction_decode w
  alu_result d.alu_ctrl (if d.alu_src1_is_pc then A.pc else A.reg d.rs1_addr)
    (if d.alu_src2_is_imm then d.imm else A.reg d.rs2_addr)

def lanes (A : ArchState) (w : Word) : BitVec 4 :=
  LoadStoreDecoder.byte_enb (alu_out A w) (instruction_decode w).func3

variable (u : LoadUnit) (A : ArchState)

def shifted_data : Word :=
  ByteReader.shifted_data u.shifted u.load_data (instruction_decode u.instruction).func3
    (lanes A u.instruction)

/-- A cycle in which no word arrives. -/
def settle : LoadUnit where
  instruction := u.instruction
  load_data := u.load_data
  shifted := u.shifted_data A
  wb := ByteReader.wb_data u.wb (u.shifted_data A) (instruction_decode u.instruction).func3

/-- The instruction has arrived. -/
def fetched : LoadUnit :=
  settle { u.settle A with instruction := read_word A.mem A.pc } A

def is_load : Bool :=
  (instruction_decode u.instruction).use_mem && !(instruction_decode u.instruction).mem_is_write

def load_addr : Word :=
  A.reg (instruction_decode u.instruction).rs1_addr + (instruction_decode u.instruction).imm

/-- The word of a load has arrived, too. -/
def loaded : LoadUnit :=
  if (u.fetched A).is_load then
    settle { u.fetched A with load_data := read_word A.mem ((u.fetched A).load_addr A) } A
  else u.fetched A

/-- The unit in phase `p` of the instruction, once it has settled. -/
def during (p : Phase) : LoadUnit :=
  if p.is_executed then u.loaded A else if p.is_fetched then u.fetched A else u.settle A

/-- What a load that selects no lane takes. -/
def held : Word := if (Rv32i.load_op u.instruction).isSome then u.shifted else u.wb

theorem shifted_data_idem (latched d : Word) (f3 : BitVec 3) (mask : BitVec 4) :
    ByteReader.shifted_data (ByteReader.shifted_data latched d f3 mask) d f3 mask =
      ByteReader.shifted_data latched d f3 mask := by
  unfold ByteReader.shifted_data
  split_ifs <;> rfl

theorem wb_data_idem (latched d : Word) (f3 : BitVec 3) :
    ByteReader.wb_data (ByteReader.wb_data latched d f3) d f3 =
      ByteReader.wb_data latched d f3 := by
  unfold ByteReader.wb_data
  split_ifs <;> rfl

variable {u A}

theorem settle_settle : (u.settle A).settle A = u.settle A := by
  have hshifted : (u.settle A).shifted_data A = u.shifted_data A := shifted_data_idem _ _ _ _
  have hwb : ((u.settle A).settle A).wb = (u.settle A).wb := by
    show ByteReader.wb_data _ ((u.settle A).shifted_data A) _ = _
    rw [hshifted]
    exact wb_data_idem _ _ _
  show LoadUnit.mk _ _ ((u.settle A).shifted_data A) ((u.settle A).settle A).wb = _
  rw [hshifted, hwb]
  rfl

theorem fetched_settled : (u.fetched A).settle A = u.fetched A := settle_settle

theorem loaded_settled : (u.loaded A).settle A = u.loaded A := by
  unfold loaded
  split
  · exact settle_settle
  · exact fetched_settled

theorem during_settled (p : Phase) : (u.during A p).settle A = u.during A p := by
  unfold during
  split
  · exact loaded_settled
  · split
    · exact fetched_settled
    · exact settle_settle

end LoadUnit

namespace RiscvCpu

def load_unit (s : RiscvCpu) : LoadUnit where
  instruction := s.instruction_latched
  load_data := s.memory_arbiter.load_data
  shifted := s.latched_shifted
  wb := s.latched_wb

variable (s : RiscvCpu) (m : Memory) (i : Input)

theorem alu_out_arch : s.alu_out = LoadUnit.alu_out (s.arch m) s.instruction_latched := by
  simp only [LoadUnit.alu_out, arch_reg]
  rfl

/-- A clock edge settles the unit, and a new word may arrive. -/
theorem load_unit_next : (s.next i).load_unit =
    { s.load_unit.settle (s.arch m) with
      instruction := (s.next i).instruction_latched
      load_data := (s.next i).memory_arbiter.load_data } := by
  have hshifted : s.shifted_data = s.load_unit.shifted_data (s.arch m) := by
    unfold shifted_data mem_write_strobe
    rw [alu_out_arch s m]
    rfl
  have hwb : s.mem_wb_data = (s.load_unit.settle (s.arch m)).wb := by
    unfold mem_wb_data
    rw [hshifted]
    rfl
  show LoadUnit.mk _ _ s.shifted_data s.mem_wb_data = _
  rw [hshifted, hwb]
  rfl

end RiscvCpu

namespace CoreAndMemory

/-! ### Following one instruction -/

/-- The core is in phase `p` of the next instruction of `A`, with a load unit
    that held `u` before it. -/
structure Follows (s : CoreAndMemory) (p : Phase) (A : ArchState) (u : LoadUnit) : Prop where
  tracks : Tracks s p A
  load_unit : s.cpu.load_unit.settle A = u.during A p
  /-- It has settled by the time of the write back. -/
  settled : p = .next_pc → s.cpu.load_unit = u.during A p

variable {s : CoreAndMemory} {i : Input} {p : Phase} {A : ArchState} {u : LoadUnit}

theorem Tracks.cpu_arch (h : Tracks s p A) : s.cpu.arch A.mem = A := by
  unfold RiscvCpu.arch
  rw [h.pc, h.x]

theorem Follows.boot (program : Memory) :
    Follows (boot program) .waiting (boot_state program) .boot where
  tracks := Tracks.boot program
  load_unit := rfl
  settled := by simp

section follows
variable (h : Follows s p A u)
include h

theorem Follows.load_unit_next : (s.next i).cpu.load_unit =
    { u.during A p with
      instruction := (s.next i).cpu.instruction_latched
      load_data := (s.next i).cpu.memory_arbiter.load_data } := by
  have hn : (s.next i).cpu.load_unit = _ :=
    RiscvCpu.load_unit_next s.cpu A.mem (s.cpu_input i)
  rw [h.tracks.cpu_arch, h.load_unit] at hn
  exact hn

/-- Nothing arrives in this cycle. -/
theorem Follows.load_unit_kept (hf : ¬ (p = .fetch_data ∧ (s.cpu_input i).m_axi.rvalid = true))
    (hl : ¬ (p = .load_data ∧ (s.cpu_input i).m_axi.rvalid = true)) :
    (s.next i).cpu.load_unit = u.during A p := by
  have hins : (s.next i).cpu.instruction_latched = _ :=
    h.tracks.at_phase.instruction_latched_next (s.cpu_input i)
  have hload : (s.next i).cpu.memory_arbiter.load_data = _ :=
    h.tracks.at_phase.load_data_next (s.cpu_input i)
  have hu := h.load_unit
  rw [h.load_unit_next, hins, hload, if_neg hf, if_neg hl, ← hu]
  rfl

/-- The instruction, once it is there. -/
theorem Follows.instruction (hp : p.is_fetched = true) (he : p.is_executed = false) :
    s.cpu.instruction_latched = (u.fetched A).instruction := by
  have hu := congrArg LoadUnit.instruction h.load_unit
  unfold LoadUnit.during at hu
  rw [if_neg (by rw [he]; decide), if_pos hp] at hu
  exact hu

theorem Follows.is_load (hp : p.is_fetched = true) (he : p.is_executed = false) :
    (u.fetched A).is_load = (s.cpu.decoded.use_mem && !s.cpu.decoded.mem_is_write) := by
  unfold LoadUnit.is_load RiscvCpu.decoded
  rw [h.instruction hp he]

theorem Follows.load_addr (hp : p.is_fetched = true) (he : p.is_executed = false)
    (hmem : s.cpu.decoded.use_mem = true) (hread : s.cpu.decoded.mem_is_write = false) :
    s.cpu.mem_addr = (u.fetched A).load_addr A := by
  have hreg : (s.cpu.arch A.mem).reg s.cpu.decoded.rs1_addr = s.cpu.rs1 := RiscvCpu.arch_reg _
  rw [h.tracks.cpu_arch] at hreg
  unfold RiscvCpu.mem_addr RiscvCpu.mem_addr_aux LoadUnit.load_addr
  rw [if_neg (by rw [hread]; decide), if_pos hmem, ← hreg, ← h.instruction hp he]
  rfl

/-- The unit is on its way to the same state. -/
theorem Follows.during_next (hp : p ≠ .next_pc)
    (hf : ¬ (p = .fetch_data ∧ (s.cpu_input i).m_axi.rvalid = true))
    (hl : ¬ (p = .load_data ∧ (s.cpu_input i).m_axi.rvalid = true)) :
    u.during A (p.next s.cpu.decoded (s.cpu_input i)) = u.during A p := by
  have hfits := h.tracks.at_phase.fits
  have hdone : p.is_fetched = true → p.is_executed = false →
      (s.cpu.decoded.use_mem && !s.cpu.decoded.mem_is_write) = false →
      u.loaded A = u.fetched A := by
    intro hp he hno
    rw [LoadUnit.loaded, if_neg]
    rw [h.is_load hp he, hno]
    decide
  cases p with
  | next_pc => exact absurd rfl hp
  | fetch_data =>
    have hrv : (s.cpu_input i).m_axi.rvalid = false := by simpa using hf
    simp only [Phase.next, hrv]
    rfl
  | load_data =>
    have hrv : (s.cpu_input i).m_axi.rvalid = false := by simpa using hl
    simp only [Phase.next, hrv]
    rfl
  | alu_result =>
    have hno : s.cpu.decoded.use_mem = false := hfits
    exact hdone rfl rfl (by rw [hno]; rfl)
  | store_resp =>
    obtain ⟨-, hw⟩ := hfits
    have hsame := hdone rfl rfl (by rw [hw, Bool.not_true, Bool.and_false])
    simp only [Phase.next]
    split
    · exact hsame
    · rfl
  | _ =>
    simp only [Phase.next]
    (repeat' split) <;> rfl

variable (hq : i.cm.quiet)
include hq

theorem Follows.unit_next (hp : p ≠ .next_pc) :
    (s.next i).cpu.load_unit.settle A =
      u.during A (p.next s.cpu.decoded (s.cpu_input i)) := by
  have htracks := h.tracks.stutter hq hp
  have hins : (s.next i).cpu.instruction_latched = _ :=
    h.tracks.at_phase.instruction_latched_next (s.cpu_input i)
  have hload : (s.next i).cpu.memory_arbiter.load_data = _ :=
    h.tracks.at_phase.load_data_next (s.cpu_input i)
  by_cases hf : p = .fetch_data ∧ (s.cpu_input i).m_axi.rvalid = true
  · -- the instruction arrives
    obtain ⟨rfl, hrv⟩ := hf
    have hnext : Phase.next s.cpu.decoded (s.cpu_input i) .fetch_data = .decoded := if_pos hrv
    rw [hnext] at htracks ⊢
    have hdata : s.cpu.memory_arbiter.load_data = (u.settle A).load_data :=
      congrArg LoadUnit.load_data h.load_unit
    rw [h.load_unit_next, htracks.fetched rfl, hload, if_neg (by simp), hdata]
    rfl
  · by_cases hl : p = .load_data ∧ (s.cpu_input i).m_axi.rvalid = true
    · -- the word of a load arrives
      obtain ⟨rfl, hrv⟩ := hl
      have hnext : Phase.next s.cpu.decoded (s.cpu_input i) .load_data = .mem_result := if_pos hrv
      obtain ⟨hmem, hread⟩ := h.tracks.at_phase.fits
      obtain ⟨hd, haddr, -, -⟩ := h.tracks.datapath_next hq hp (by simp)
      rw [hnext] at htracks ⊢
      have hdata := htracks.loaded rfl (by rw [hd, hmem]) (by rw [hd, hread])
      have hisload : (u.fetched A).is_load = true := by
        rw [h.is_load rfl rfl, hmem, hread]
        rfl
      rw [h.load_unit_next, hdata, haddr, h.load_addr rfl rfl hmem hread, hins, if_neg hf,
        h.instruction rfl rfl]
      show _ = u.loaded A
      rw [LoadUnit.loaded, if_pos hisload]
      rfl
    · rw [h.load_unit_kept hf hl, h.during_next hp hf hl, LoadUnit.during_settled]

/-- A quiet cycle other than NEXT_PC. -/
theorem Follows.stutter (hp : p ≠ .next_pc) :
    Follows (s.next i) (p.next s.cpu.decoded (s.cpu_input i)) A u where
  tracks := h.tracks.stutter hq hp
  load_unit := h.unit_next hq hp
  settled := by
    intro hnext
    -- NEXT_PC follows a result, and no word arrives with it
    have hres : p ≠ .fetch_data ∧ p ≠ .load_data := by
      constructor <;> rintro rfl <;> simp only [Phase.next] at hnext <;> split at hnext <;>
        cases hnext
    have hf : ¬ (p = .fetch_data ∧ (s.cpu_input i).m_axi.rvalid = true) := fun hc => hres.1 hc.1
    have hl : ¬ (p = .load_data ∧ (s.cpu_input i).m_axi.rvalid = true) := fun hc => hres.2 hc.1
    rw [h.load_unit_kept hf hl, h.during_next hp hf hl]

end follows

/-! ### Retiring any instruction -/

/-- NEXT_PC makes the step of the core, whatever the word is. -/
theorem Tracks.retire_any (h : Tracks s .next_pc A) (hq : i.cm.quiet) :
    Tracks (s.next i) .waiting (CoreIsa.step s.cpu.held A) := by
  have hexec : CoreIsa.step s.cpu.held A = s.cpu.retired A.mem := by
    rw [← RiscvCpu.exec_word_eq_retired (h.loaded rfl), h.cpu_arch, h.fetched rfl]
    rfl
  have hat := h.at_phase.next (s.cpu_input i)
  rw [hexec]
  refine ⟨hat, ?_, ?_, by simp [Phase.is_fetched], by simp [Phase.is_executed], ?_⟩
  · have hpc : (s.next i).cpu.pc = _ := h.at_phase.pc_next (s.cpu_input i)
    rw [hpc, if_pos rfl, RiscvCpu.retired]
  · exact h.at_phase.read_next_of_next_pc (i := s.cpu_input i) hq
  · have hmem := accesses_next (i := i) h.at_phase h.memory
    have hidle : (s.next i).memory = MemorySlave.idle (s.cpu.stored A.mem) := hmem
    exact hidle

theorem Follows.retire (h : Follows s .next_pc A u) (hq : i.cm.quiet) :
    Follows (s.next i) .waiting (CoreIsa.step (u.loaded A).held A) (u.loaded A) where
  tracks := by
    have hunit : s.cpu.load_unit = u.loaded A := h.settled rfl
    rw [← hunit]
    exact h.tracks.retire_any hq
  load_unit := by
    rw [h.load_unit_kept (by simp) (by simp)]
    rfl
  settled := by simp

/-! ### The run -/

/-- One instruction, as the core executes it. -/
def advance (x : ArchState × LoadUnit) : ArchState × LoadUnit :=
  (CoreIsa.step (x.2.loaded x.1).held x.1, x.2.loaded x.1)

/-- The state after `n` instructions, a function of the program alone. -/
def reference (program : Memory) (n : Nat) : ArchState × LoadUnit :=
  advance^[n] (boot_state program, .boot)

theorem reference_succ (program : Memory) (n : Nat) :
    reference program (n + 1) = advance (reference program n) :=
  Function.iterate_succ_apply' advance n _

theorem reference_step (program : Memory) (n : Nat) :
    ∃ held, (reference program (n + 1)).1 = CoreIsa.step held (reference program n).1 := by
  rw [reference_succ]
  exact ⟨_, rfl⟩

theorem reference_of_rv32i {program : Memory} {n : Nat} {A' : ArchState}
    (h : Rv32i.step (reference program n).1 = some A') : (reference program (n + 1)).1 = A' := by
  obtain ⟨held, hheld⟩ := reference_step program n
  rw [hheld, CoreIsa.step_of_rv32i held h]

variable {program : Memory} {e : Lts.Execution CoreAndMemory Input}

theorem follows_run (hv : (system program).valid_exec e) (hquiet : ∀ k, (e.labels k).cm.quiet)
    (k : Nat) : ∃ p, Follows (e.states k) p (reference program (e.count retires k)).1
      (reference program (e.count retires k)).2 := by
  refine e.tracks_total retires advance (fun s x => ∃ p, Follows s p x.1 x.2)
    (boot_state program, .boot) ?_ ?_ ?_ k
  · have hinit : e.states 0 = boot program := hv.1
    rw [hinit]
    exact ⟨.waiting, Follows.boot program⟩
  · rintro k ⟨A, u⟩ ⟨p, hp⟩ hvis
    have hstep : e.states (k + 1) = (e.states k).next (e.labels k) := hv.2 k
    have hne : p ≠ .next_pc := by
      rintro rfl
      rw [retires, hp.tracks.at_phase.next_pc_transaction] at hvis
      simp at hvis
    rw [hstep]
    exact ⟨_, hp.stutter (hquiet k) hne⟩
  · rintro k ⟨A, u⟩ ⟨p, hp⟩ hvis
    have hstep : e.states (k + 1) = (e.states k).next (e.labels k) := hv.2 k
    rw [retires, hp.tracks.at_phase.next_pc_transaction] at hvis
    obtain rfl : p = .next_pc := by simpa using hvis
    rw [hstep]
    exact ⟨_, hp.retire (hquiet k)⟩

/-- The `n`-th instruction retires, whatever the words are. -/
theorem PhaseRun.retires_for_ever {ph : Nat → Phase} (hr : PhaseRun e ph) (hresp : Responsive e)
    (hstall : ∀ k, ∃ j, k ≤ j ∧ (e.labels j).cm.cm_pc_stall = false) (n : Nat) :
    ∃ k, CoreAndMemory.retires (e.states k) (e.labels k) = true ∧
      e.count CoreAndMemory.retires (k + 1) = n + 1 := by
  have hinf : ∀ k, ∃ j, k ≤ j ∧ CoreAndMemory.retires (e.states j) (e.labels j) = true := by
    intro k
    obtain ⟨j, hkj, hj⟩ := hr.retires_again hresp hstall k
    refine ⟨j, hkj, ?_⟩
    rw [CoreAndMemory.retires, (hr.linked j).at_phase.next_pc_transaction, hj]
    rfl
  obtain ⟨k, hk, hcount⟩ := e.exists_count_eq CoreAndMemory.retires hinf n
  exact ⟨k, hk, by rw [e.count_succ_of_true CoreAndMemory.retires hk, hcount]⟩

/-- Every program has one run. There are states `A 0`, `A 1`, ... from the
    boot state on, each the effect of one word on the state before, that the
    core goes through whatever the memory's delays and the stall are: after
    the `n`-th NEXT_PC transaction it is in `A n`. As long as RV32I defines
    the step this is its step. With finite delays and a stall that is low
    again and again the run does not stop, whatever the words are. -/
theorem every_program (program : Memory) :
    ∃ A : Nat → ArchState, A 0 = boot_state program ∧
      (∀ n, ∃ held, A (n + 1) = CoreIsa.step held (A n)) ∧
      (∀ n A', Rv32i.step (A n) = some A' → A (n + 1) = A') ∧
      ∀ e : Lts.Execution CoreAndMemory Input, (system program).valid_exec e →
        (∀ k, (e.labels k).cm.quiet) →
        (∀ k, retires (e.states k) (e.labels k) = true →
          (e.states (k + 1)).arch = A (e.count retires (k + 1))) ∧
        (Responsive e → (∀ k, ∃ j, k ≤ j ∧ (e.labels j).cm.cm_pc_stall = false) →
          ∀ n, ∃ k, retires (e.states k) (e.labels k) = true ∧
            e.count retires (k + 1) = n + 1) := by
  refine ⟨fun n => (reference program n).1, rfl, reference_step program,
    fun n A' hA' => reference_of_rv32i hA', ?_⟩
  intro e hv hquiet
  obtain ⟨ph, hr, -⟩ := phase_run hv
  constructor
  · intro k hret
    obtain ⟨p, hp⟩ := follows_run hv hquiet (k + 1)
    have hk : ph k = .next_pc := by
      unfold retires at hret
      rw [(hr.linked k).at_phase.next_pc_transaction] at hret
      simpa using hret
    have hp' : ph (k + 1) = .waiting := by
      rw [hr.next k, hk]
      rfl
    obtain rfl : p = .waiting :=
      hp.tracks.at_phase.unique (hp' ▸ (hr.linked (k + 1)).at_phase)
    exact hp.tracks.arch_eq
  · exact fun hresp hstall => hr.retires_for_ever hresp hstall

/-! ### A memory of zeros -/

/-- No instruction of RV32I. -/
def zeros : Memory := fun _ => 0#8

theorem zeros_step (held pc : Word) (x : BitVec 5 → Word) :
    CoreIsa.step held ⟨pc, x, zeros⟩ = ⟨pc + 4#32, x, zeros⟩ := by
  have hw : read_word zeros pc = 0#32 := by simp [read_word, load_word, word_of, zeros]
  unfold CoreIsa.step
  rw [hw]
  rfl

/-- The core walks through it, slowly. -/
theorem every_program_zeros :
    ∃ k, retires ((slow_run zeros stall_pulses).states k)
        ((slow_run zeros stall_pulses).labels k) = true ∧
      (slow_run zeros stall_pulses).count retires (k + 1) = 3 ∧
      ((slow_run zeros stall_pulses).states (k + 1)).arch =
        ⟨0x0000100C#32, fun _ => 0#32, zeros⟩ := by
  obtain ⟨A, hboot, hstep, -, hrun⟩ := every_program zeros
  obtain ⟨hstate, hlive⟩ :=
    hrun (slow_run zeros stall_pulses) (slow_run_valid _ _) (fun _ => ⟨rfl, rfl, rfl⟩)
  obtain ⟨k, hk, hcount⟩ := hlive (slow_run_responsive _ _) stall_pulses_released 2
  refine ⟨k, hk, hcount, ?_⟩
  obtain ⟨held₀, h₀⟩ := hstep 0
  obtain ⟨held₁, h₁⟩ := hstep 1
  obtain ⟨held₂, h₂⟩ := hstep 2
  rw [hboot, boot_state, zeros_step] at h₀
  rw [h₀, zeros_step] at h₁
  rw [h₁, zeros_step] at h₂
  rw [hstate k hk, hcount, h₂]
  rfl

end CoreAndMemory

end RiscvWorker
