import RiscvWorker.System.CoreAndMemory

/-! # The core refines the instruction set

  `Tracks s p A`: the core is in phase `p` of the instruction that the
  architectural state `A` executes next. The relation says where the pieces
  of `A` are: the PC and the registers in the core, the memory in the slave,
  with the access of the phase under way, and the instruction and the loaded
  word in their latches once they have arrived.

  A cycle in which the control module writes nothing keeps `A`
  (`Tracks.stutter`), except NEXT_PC, which makes one step of the reference
  semantics (`Tracks.retire`). -/

namespace RiscvWorker

open AxiLite (Master Slave MemorySlave)
open ByteMemory
open Rv32i (ArchState)

/-- The instruction of this phase has arrived. -/
def Phase.is_fetched : Phase → Bool
  | .waiting | .fetch_addr | .fetch_data => false
  | _ => true

/-- The execute result of this phase is there. -/
def Phase.is_executed : Phase → Bool
  | .mem_result | .next_pc => true
  | _ => false

/-- The memory has accepted an address in this phase. -/
def Phase.has_address : Phase → Bool
  | .fetch_data | .load_data | .store_data | .store_resp => true
  | _ => false

/-- The memory has accepted data in this phase. -/
def Phase.has_data : Phase → Bool
  | .store_addr | .store_resp => true
  | _ => false

/-- An instruction arrives at the end of its fetch. -/
theorem Phase.of_next_is_fetched {p : Phase} {d : Decoded} {i : RiscvCpu.Input}
    (h : (p.next d i).is_fetched = true) :
    p.is_fetched = true ∨ (p = .fetch_data ∧ i.m_axi.rvalid = true) := by
  cases p <;> simp only [Phase.next] at h <;> (repeat' split at h) <;> simp_all [is_fetched]

/-- The ways to an execute result. -/
theorem Phase.of_next_is_executed {p : Phase} {d : Decoded} {i : RiscvCpu.Input}
    (h : (p.next d i).is_executed = true) :
    p = .alu_result ∨ (p = .load_data ∧ i.m_axi.rvalid = true) ∨
      (p = .store_resp ∧ i.m_axi.bvalid = true) ∨ p = .mem_result := by
  cases p <;> simp only [Phase.next] at h <;> (repeat' split at h) <;> simp_all [is_executed]

namespace CoreAndMemory

/-- The access the core carries out in phase `p`. -/
def access_of (cpu : RiscvCpu) (p : Phase) : Access where
  addr := if p = .fetch_data then cpu.pc else cpu.mem_addr
  data := cpu.mem_write_data
  strb := cpu.mem_write_strobe

/-- What the memory holds in phase `p` if the instruction found `M`. -/
def content (cpu : RiscvCpu) (M : Memory) (p : Phase) : Memory :=
  if p.is_executed then cpu.stored M else M

/-- Only what the memory has accepted matters. -/
theorem Accesses.congr {M : Memory} {acc acc' : Access} {p : Phase} {m : MemorySlave}
    (h : Accesses M acc p m) (haddr : p.has_address = true → acc'.addr = acc.addr)
    (hdata : p.has_data = true → acc'.data = acc.data ∧ acc'.strb = acc.strb) :
    Accesses M acc' p m := by
  cases p with
  | fetch_data | load_data =>
    show MemorySlave.Reading M acc'.addr m
    rw [haddr rfl]
    exact h
  | store_addr =>
    obtain ⟨hd, hs⟩ := hdata rfl
    show m = MemorySlave.has_data M acc'.data acc'.strb
    rw [hd, hs]
    exact h
  | store_data =>
    show m = MemorySlave.has_addr M acc'.addr
    rw [haddr rfl]
    exact h
  | store_resp =>
    obtain ⟨hd, hs⟩ := hdata rfl
    show MemorySlave.Writing M acc'.addr acc'.data acc'.strb m
    rw [haddr rfl, hd, hs]
    exact h
  | _ => exact h

/-- The core is in phase `p` of the next instruction of `A`. -/
structure Tracks (s : CoreAndMemory) (p : Phase) (A : ArchState) : Prop where
  at_phase : s.cpu.At p
  pc : s.cpu.pc = A.pc
  x : s.cpu.register_file.read = A.x
  fetched : p.is_fetched = true → s.cpu.instruction_latched = read_word A.mem A.pc
  loaded : p.is_executed = true → s.cpu.Loaded A.mem
  memory : Accesses (content s.cpu A.mem p) (access_of s.cpu p) p s.memory

variable {s : CoreAndMemory} {i : Input} {p : Phase} {A : ArchState}

theorem Tracks.boot (program : Memory) :
    Tracks (boot program) .waiting ⟨BOOT_ADDR, fun _ => 0#32, program⟩ where
  at_phase := RiscvCpu.At.reset
  pc := rfl
  x := by
    funext r
    show RegisterFile.reset.read r = 0#32
    unfold RegisterFile.read RegisterFile.reset
    split <;> rfl
  fetched := by simp [Phase.is_fetched]
  loaded := by simp [Phase.is_executed]
  memory := rfl

/-- Between instructions the machine holds exactly the architectural state. -/
theorem Tracks.arch_eq (h : Tracks s .waiting A) : s.arch = A := by
  have hm : s.memory = MemorySlave.idle A.mem := h.memory
  obtain ⟨pc, x, mem⟩ := A
  unfold arch RiscvCpu.arch
  rw [h.pc, h.x, hm]
  rfl

theorem tracks_arch (h : s.cpu.At .waiting) (hm : s.memory = MemorySlave.idle s.memory.mem) :
    Tracks s .waiting s.arch where
  at_phase := h
  pc := rfl
  x := rfl
  fetched := by simp [Phase.is_fetched]
  loaded := by simp [Phase.is_executed]
  memory := hm

/-! ### Stuttering steps -/

section stutter
variable (h : Tracks s p A)
include h

/-- The instruction arrives from the address of the PC. -/
theorem Tracks.fetched_next (hf : (p.next s.cpu.decoded (s.cpu_input i)).is_fetched = true) :
    (s.next i).cpu.instruction_latched = read_word A.mem A.pc := by
  have hins : (s.next i).cpu.instruction_latched = _ :=
    h.at_phase.instruction_latched_next (s.cpu_input i)
  rcases Phase.of_next_is_fetched hf with hp | ⟨rfl, hrv⟩
  · have hne : p ≠ .fetch_data := by
      rintro rfl
      exact absurd hp (by decide)
    rw [hins, if_neg (fun hc => hne hc.1)]
    exact h.fetched hp
  · -- the answer of a read is the word at its address, here the PC
    have hmem : MemorySlave.Reading A.mem s.cpu.pc s.memory := h.memory
    rw [hins, if_pos ⟨rfl, hrv⟩, ← h.pc]
    exact hmem.rdata hrv

variable (hq : i.cm.quiet)
include hq

/-- What the datapath shows after a quiet cycle. -/
theorem Tracks.datapath_next (hp : p ≠ .next_pc) (hf : p ≠ .fetch_data) :
    (s.next i).cpu.decoded = s.cpu.decoded ∧
    (s.next i).cpu.mem_addr = s.cpu.mem_addr ∧
    (s.cpu.decoded.use_mem = true →
      (s.next i).cpu.mem_write_strobe = s.cpu.mem_write_strobe ∧
      (s.next i).cpu.mem_write_data = s.cpu.mem_write_data) ∧
    ∀ M, (s.next i).cpu.stored M = s.cpu.stored M := by
  have hd : (s.next i).cpu.decoded = s.cpu.decoded := h.at_phase.decoded_next hf
  have hread : (s.next i).cpu.register_file.read = s.cpu.register_file.read :=
    h.at_phase.read_next_of_quiet hq hp
  have h1 : (s.next i).cpu.rs1 = s.cpu.rs1 := by
    unfold RiscvCpu.rs1
    rw [hread, hd]
  have h2 : (s.next i).cpu.rs2 = s.cpu.rs2 := by
    unfold RiscvCpu.rs2
    rw [hread, hd]
  have haddr := RiscvCpu.mem_addr_congr hd h1
  have hport : s.cpu.decoded.use_mem = true →
      (s.next i).cpu.mem_write_strobe = s.cpu.mem_write_strobe ∧
      (s.next i).cpu.mem_write_data = s.cpu.mem_write_data := by
    intro hmem
    exact ⟨RiscvCpu.mem_write_strobe_congr hd hmem h1,
      RiscvCpu.mem_write_data_congr hd hmem h1 h2 rfl⟩
  refine ⟨hd, haddr, hport, ?_⟩
  intro M
  cases hmem : s.cpu.decoded.use_mem with
  | true =>
    -- the effect of a store is a function of what it drives
    obtain ⟨hstrb, hdata⟩ := hport hmem
    unfold RiscvCpu.stored
    rw [hd, haddr, hstrb, hdata]
  | false =>
    rw [RiscvCpu.stored_of_not_store (Or.inl hmem),
      RiscvCpu.stored_of_not_store (Or.inl (by rw [hd, hmem]))]

/-- A loaded word arrives from the address of the load. -/
theorem Tracks.loaded_next (hp : p ≠ .next_pc)
    (he : (p.next s.cpu.decoded (s.cpu_input i)).is_executed = true) :
    (s.next i).cpu.Loaded A.mem := by
  have hload : (s.next i).cpu.memory_arbiter.load_data = _ :=
    h.at_phase.load_data_next (s.cpu_input i)
  have hf : p ≠ .fetch_data := by
    rintro rfl
    rcases Phase.of_next_is_executed he with hc | ⟨hc, -⟩ | ⟨hc, -⟩ | hc <;> cases hc
  obtain ⟨hd, haddr, -, -⟩ := h.datapath_next hq hp hf
  have hfits := h.at_phase.fits
  intro hmem hread
  rw [hd] at hmem hread
  rw [haddr]
  -- an ALU result, the word of a load, the answer to a store, or a held result
  rcases Phase.of_next_is_executed he with rfl | ⟨rfl, hrv⟩ | ⟨rfl, -⟩ | rfl
  · exact absurd (hfits.symm.trans hmem) (by decide)
  · have hm : MemorySlave.Reading A.mem s.cpu.mem_addr s.memory := h.memory
    rw [hload, if_pos ⟨rfl, hrv⟩]
    exact hm.rdata hrv
  · exact absurd (hfits.2.symm.trans hread) (by decide)
  · rw [hload, if_neg (by simp)]
    exact h.loaded rfl hmem hread

/-- A store takes effect in the cycle of its answer, and only then. -/
theorem Tracks.content_next (hp : p ≠ .next_pc) :
    content (s.next i).cpu A.mem (p.next s.cpu.decoded (s.cpu_input i)) =
      memory_after (content s.cpu A.mem p) (access_of s.cpu p) p
        (s.memory.port i.choice).bvalid := by
  by_cases he : (p.next s.cpu.decoded (s.cpu_input i)).is_executed = true
  · have hf : p ≠ .fetch_data := by
      rintro rfl
      rcases Phase.of_next_is_executed he with hc | ⟨hc, -⟩ | ⟨hc, -⟩ | hc <;> cases hc
    obtain ⟨-, -, -, hstored⟩ := h.datapath_next hq hp hf
    have hfits := h.at_phase.fits
    rw [content, if_pos he, hstored]
    -- an ALU result, the word of a load, the answer to a store, or a held result
    rcases Phase.of_next_is_executed he with rfl | ⟨rfl, -⟩ | ⟨rfl, hbv⟩ | rfl
    · exact RiscvCpu.stored_of_not_store (Or.inl hfits)
    · exact RiscvCpu.stored_of_not_store (Or.inr hfits.2)
    · have hbv' : (s.memory.port i.choice).bvalid = true := hbv
      rw [memory_after, if_pos ⟨rfl, hbv'⟩]
      exact RiscvCpu.stored_of_store hfits.1 hfits.2
    · rfl
  · have hbefore : content s.cpu A.mem p = A.mem := by
      cases p with
      | mem_result => exact absurd rfl he
      | next_pc => exact absurd rfl hp
      | _ => rfl
    have hno : ¬ (p = .store_resp ∧ (s.memory.port i.choice).bvalid = true) := by
      rintro ⟨rfl, hbv⟩
      have hbv' : (s.cpu_input i).m_axi.bvalid = true := hbv
      exact he (by simp [Phase.next, hbv', Phase.is_executed])
    rw [content, if_neg he, memory_after, if_neg hno, hbefore]

/-- An access under way keeps the address that it was started with. -/
theorem Tracks.address_next (hp : p ≠ .next_pc)
    (hu : (p.next s.cpu.decoded (s.cpu_input i)).has_address = true) :
    (access_of (s.next i).cpu (p.next s.cpu.decoded (s.cpu_input i))).addr =
      ((access_of s.cpu p).update s.cpu p).addr := by
  have hpc : (s.next i).cpu.pc = s.cpu.pc :=
    h.at_phase.pc_next_of_quiet (i := s.cpu_input i) hq hp
  have haddr : p ≠ .fetch_data → (s.next i).cpu.mem_addr = s.cpu.mem_addr :=
    fun hf => (h.datapath_next hq hp hf).2.1
  revert hu
  -- a fetch, a load or a store
  cases p <;> simp only [Phase.next] <;> (repeat' split) <;> intro hu <;> first
    | exact absurd hu (by decide)
    | exact hpc
    | exact haddr (by decide)

/-- A store keeps the data and the strobes that it was started with. -/
theorem Tracks.data_next (hp : p ≠ .next_pc)
    (hu : (p.next s.cpu.decoded (s.cpu_input i)).has_data = true) :
    (access_of (s.next i).cpu (p.next s.cpu.decoded (s.cpu_input i))).data =
      ((access_of s.cpu p).update s.cpu p).data ∧
    (access_of (s.next i).cpu (p.next s.cpu.decoded (s.cpu_input i))).strb =
      ((access_of s.cpu p).update s.cpu p).strb := by
  have hfits := h.at_phase.fits
  have hport : p ≠ .fetch_data → s.cpu.decoded.use_mem = true → _ :=
    fun hf => (h.datapath_next hq hp hf).2.2.1
  revert hu
  cases p <;> simp only [Phase.next] <;> (repeat' split) <;> intro hu <;> first
    | exact absurd hu (by decide)
    | exact ⟨(hport (by decide) hfits.1).2, (hport (by decide) hfits.1).1⟩

/-- The memory carries out the access of the phase the core moves to. -/
theorem Tracks.memory_next (hp : p ≠ .next_pc) :
    Accesses (content (s.next i).cpu A.mem (p.next s.cpu.decoded (s.cpu_input i)))
      (access_of (s.next i).cpu (p.next s.cpu.decoded (s.cpu_input i)))
      (p.next s.cpu.decoded (s.cpu_input i)) (s.next i).memory := by
  have hmem := accesses_next (i := i) h.at_phase h.memory
  rw [h.content_next hq hp]
  exact hmem.congr (h.address_next hq hp) (h.data_next hq hp)

/-- A quiet cycle other than NEXT_PC keeps the architectural state. -/
theorem Tracks.stutter (hp : p ≠ .next_pc) :
    Tracks (s.next i) (p.next s.cpu.decoded (s.cpu_input i)) A where
  at_phase := h.at_phase.next (s.cpu_input i)
  pc := (h.at_phase.pc_next_of_quiet (i := s.cpu_input i) hq hp).trans h.pc
  x := (h.at_phase.read_next_of_quiet (i := s.cpu_input i) hq hp).trans h.x
  fetched := h.fetched_next
  loaded := h.loaded_next hq hp
  memory := h.memory_next hq hp

end stutter

/-! ### Retiring an instruction -/

/-- NEXT_PC makes the step of the reference semantics. -/
theorem Tracks.retire (h : Tracks s .next_pc A) (hq : i.cm.quiet) {A' : ArchState}
    (hstep : Rv32i.step A = some A') : Tracks (s.next i) .waiting A' := by
  obtain ⟨ins, hpc, hdec, hal, rfl⟩ := Rv32i.step_eq_some hstep
  have harch : s.cpu.arch A.mem = A := by
    unfold RiscvCpu.arch
    rw [h.pc, h.x]
  have hfetched : s.cpu.instruction_latched = load_word A.mem A.pc := by
    rw [h.fetched rfl, read_word_eq_load_word hpc]
  -- the latched word is the instruction of `A`, and the datapath computes its effect
  have hexec : Rv32i.exec A ins = s.cpu.retired A.mem := by
    rw [← harch]
    apply RiscvCpu.exec_eq_retired
    · rw [hfetched, hdec]
    · rw [harch, hal]
    · exact h.loaded rfl
  have hat := h.at_phase.next (s.cpu_input i)
  rw [hexec]
  refine ⟨hat, ?_, ?_, by simp [Phase.is_fetched], by simp [Phase.is_executed], ?_⟩
  · have hpc' : (s.next i).cpu.pc = _ := h.at_phase.pc_next (s.cpu_input i)
    rw [hpc', if_pos rfl, RiscvCpu.retired]
  · exact h.at_phase.read_next_of_next_pc (i := s.cpu_input i) hq
  · have hmem := accesses_next (i := i) h.at_phase h.memory
    have hidle : (s.next i).memory = MemorySlave.idle (s.cpu.stored A.mem) := hmem
    exact hidle

end CoreAndMemory

end RiscvWorker
