import RiscvWorker.Library.WordArray
import RiscvWorker.System.Refinement
import RiscvWorker.System.Progress

/-! # Runs of the core are runs of the instruction set

  The run theorem: after each NEXT_PC transaction the PC, the registers and
  the memory are those of the sequential reference run, for every memory
  timing and every waveform of the stall; and no instruction is missing from
  the run when the memory's delays are finite and the stall is released
  again and again.
-/

namespace RiscvWorker

open AxiLite (Master Slave MemorySlave)
open ByteMemory
open Rv32i (ArchState)

/-- The architectural state after reset. -/
def boot_state (program : Memory) : ArchState := ⟨BOOT_ADDR, fun _ => 0#32, program⟩

namespace CoreAndMemory

/-- The NEXT_PC transaction, as an event of a run. -/
def retires (s : CoreAndMemory) (_ : Input) : Bool := s.cpu.next_pc_transaction

variable {program : Memory} {e : Lts.Execution CoreAndMemory Input}

/-- In every cycle the core tracks the state that the reference run has
    reached with the instructions retired so far. -/
theorem run_tracks (hv : (system program).valid_exec e) (hquiet : ∀ k, (e.labels k).cm.quiet)
    (k : Nat) {A : ArchState}
    (hA : Lts.iterate Rv32i.step (e.count retires k) (boot_state program) = some A) :
    ∃ p, Tracks (e.states k) p A := by
  refine e.tracks retires Rv32i.step (fun s A => ∃ p, Tracks s p A) (boot_state program)
    ?_ ?_ ?_ k A hA
  · have hinit : e.states 0 = boot program := hv.1
    rw [hinit]
    exact ⟨.waiting, Tracks.boot program⟩
  · intro k A htracks hvis
    obtain ⟨p, hp⟩ := htracks
    have hstep : e.states (k + 1) = (e.states k).next (e.labels k) := hv.2 k
    -- NEXT_PC is visible, so this is another phase
    have hne : p ≠ .next_pc := by
      rintro rfl
      rw [retires, hp.at_phase.next_pc_transaction] at hvis
      simp at hvis
    rw [hstep]
    exact ⟨_, hp.stutter (hquiet k) hne⟩
  · intro k A A' htracks hvis hnext
    obtain ⟨p, hp⟩ := htracks
    have hstep : e.states (k + 1) = (e.states k).next (e.labels k) := hv.2 k
    rw [retires, hp.at_phase.next_pc_transaction] at hvis
    obtain rfl : p = .next_pc := by simpa using hvis
    rw [hstep]
    exact ⟨_, hp.retire (hquiet k) hnext⟩

/-- The core refines the instruction set. For every program, as far as its
    reference run is defined: the state after the `n`-th NEXT_PC transaction
    is the `n`-th state of the reference run. The memory's delays and the
    stall are arbitrary. If the delays are finite and the stall is low again
    and again, there is an `n`-th NEXT_PC transaction for every `n`. -/
theorem core_refines_isa (hv : (system program).valid_exec e)
    (hquiet : ∀ k, (e.labels k).cm.quiet) :
    (∀ k, retires (e.states k) (e.labels k) = true →
      ∀ A, Lts.iterate Rv32i.step (e.count retires (k + 1)) (boot_state program) = some A →
        (e.states (k + 1)).arch = A) ∧
    (Responsive e → (∀ k, ∃ j, k ≤ j ∧ (e.labels j).cm.cm_pc_stall = false) →
      ∀ n, ∃ k, retires (e.states k) (e.labels k) = true ∧ e.count retires (k + 1) = n + 1) := by
  obtain ⟨ph, hr, -⟩ := phase_run hv
  constructor
  · intro k hret A hA
    obtain ⟨p, hp⟩ := run_tracks hv hquiet (k + 1) hA
    have hk : ph k = .next_pc := by
      unfold retires at hret
      rw [(hr.linked k).at_phase.next_pc_transaction] at hret
      simpa using hret
    -- after NEXT_PC the core holds exactly what it tracks
    have hp' : ph (k + 1) = .waiting := by
      rw [hr.next k, hk]
      rfl
    obtain rfl : p = .waiting := hp.at_phase.unique (hp' ▸ (hr.linked (k + 1)).at_phase)
    exact hp.arch_eq
  · intro hresp hstall n
    have hinf : ∀ k, ∃ j, k ≤ j ∧ retires (e.states j) (e.labels j) = true := by
      intro k
      obtain ⟨j, hkj, hj⟩ := hr.retires_again hresp hstall k
      refine ⟨j, hkj, ?_⟩
      unfold retires
      rw [(hr.linked j).at_phase.next_pc_transaction, hj]
      rfl
    obtain ⟨k, hk, hcount⟩ := e.exists_count_eq retires hinf n
    exact ⟨k, hk, by rw [e.count_succ_of_true retires hk, hcount]⟩

/-! ### A memory full of NOPs -/

/-- `addi x0, x0, 0` everywhere. -/
def nops : Memory := fun a => if a.toNat % 4 = 0 then 0x13#8 else 0#8

/-- The control module of a running core that nobody debugs. -/
def CmPort.running : CmPort where
  cm_pc_stall := false
  cm_pc_we := false
  cm_pc_write_data := 0#32
  cm_regfile_addr := 0#5
  cm_regfile_we := false
  cm_regfile_write_data := 0#32
  cm_regfile_fault_addr := 0#5
  cm_regfile_fault_mode := 0#2
  cm_regfile_fault_mask := 0#32
  cm_regfile_fault_enable := false

/-! ### A program that counts -/

/-- `lw x5, 4(x0)`, `addi x5, x5, 1`, `sw x5, 4(x0)`, and back to the `lw`; the
    word counts from 41. -/
def counter : Memory :=
  store_words (store_words (fun _ => 0#8) 4#32 [41#32]) BOOT_ADDR
    [0x00402283#32, 0x00128293#32, 0x00502223#32, 0xFE000AE3#32]

/-- The reference run of the counter. -/
def counted (n : Nat) : ArchState :=
  (Lts.iterate Rv32i.step n (boot_state counter)).getD (boot_state counter)

theorem counter_steps {n : Nat} (hn : n ≤ 8) :
    Lts.iterate Rv32i.step n (boot_state counter) = some (counted n) := by
  have hsome : ∀ n, n ≤ 8 → (Lts.iterate Rv32i.step n (boot_state counter)).isSome = true := by
    decide +kernel
  obtain ⟨A, hA⟩ := Option.isSome_iff_exists.mp (hsome n hn)
  unfold counted
  rw [hA, Option.getD_some]

/-- A run on a memory that is busy in two of three cycles. -/
def slow_run (program : Memory) (stall : Nat → Bool) : Lts.Execution CoreAndMemory Input :=
  .of_inputs next (boot program) fun k =>
    { cm := { CmPort.running with cm_pc_stall := stall k }
      choice := MemorySlave.now_and_then 2 k }

section slow_run
variable (program : Memory) (stall : Nat → Bool)

theorem slow_run_valid : (system program).valid_exec (slow_run program stall) :=
  ⟨rfl, fun _ => rfl⟩

theorem slow_run_responsive : Responsive (slow_run program stall) :=
  (MemorySlave.eager_again_prompt (MemorySlave.now_and_then_again 2) fun _ => rfl).responsive

end slow_run

/-- Three cycles in seven. -/
def stall_pulses (k : Nat) : Bool := decide (k % 7 < 3)

theorem stall_pulses_released (k : Nat) : ∃ j, k ≤ j ∧ stall_pulses j = false :=
  ⟨7 * k + 3, by omega, decide_eq_false (by omega)⟩

/-- Under these pulses the run gets through two rounds. -/
theorem core_refines_isa_counter :
    ∃ k, retires ((slow_run counter stall_pulses).states k)
        ((slow_run counter stall_pulses).labels k) = true ∧
      (slow_run counter stall_pulses).count retires (k + 1) = 8 ∧
      ((slow_run counter stall_pulses).states (k + 1)).arch.pc = BOOT_ADDR ∧
      load_word ((slow_run counter stall_pulses).states (k + 1)).arch.mem 4#32 = 43#32 := by
  obtain ⟨hstate, hlive⟩ :=
    core_refines_isa (slow_run_valid counter stall_pulses) (fun _ => ⟨rfl, rfl, rfl⟩)
  obtain ⟨k, hk, hcount⟩ :=
    hlive (slow_run_responsive counter stall_pulses) stall_pulses_released 7
  refine ⟨k, hk, hcount, ?_⟩
  rw [hstate k hk (counted 8) (hcount ▸ counter_steps (by decide))]
  decide +kernel

end CoreAndMemory

end RiscvWorker
