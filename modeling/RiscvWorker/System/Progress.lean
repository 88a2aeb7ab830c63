import RiscvWorker.System.CoreAndMemory

/-! # Progress

  Whatever the control module does, the core and the memory stay in step:
  in every phase the memory has exactly the access under way that the phase
  waits for. With finite delays no phase but `waiting` lasts for ever, and
  `waiting` ends when the stall is released.
-/

namespace RiscvWorker

open AxiLite (Master Slave MemorySlave)
open ByteMemory

/-! ### The order of the phases -/

namespace Phase

/-- How far an instruction is from its retirement. -/
def rank : Phase → Nat
  | .waiting => 13
  | .fetch_addr => 12
  | .fetch_data => 11
  | .decoded => 10
  | .load_addr => 9
  | .load_data => 8
  | .store_both => 7
  | .store_addr => 6
  | .store_data => 5
  | .store_resp => 4
  | .alu_result => 3
  | .mem_result => 2
  | .next_pc => 1

theorem rank_injective {p q : Phase} (h : p.rank = q.rank) : p = q := by
  cases p <;> cases q <;> first | rfl | exact absurd h (by decide)

variable {p : Phase} {d : Decoded} {i : RiscvCpu.Input}

/-- An instruction never goes back. -/
theorem rank_next (hp : p ≠ .next_pc) : (p.next d i).rank ≤ p.rank := by
  cases p <;> simp only [next] <;> (repeat' split) <;> simp_all [rank]

/-- A PC waits again only after NEXT_PC. -/
theorem next_ne_waiting (hw : p ≠ .waiting) (hp : p ≠ .next_pc) : p.next d i ≠ .waiting := by
  cases p <;> simp only [next] <;> (repeat' split) <;> simp_all

end Phase

namespace CoreAndMemory

/-- The core is in phase `p`, and the memory carries out its access. -/
structure Linked (s : CoreAndMemory) (p : Phase) : Prop where
  at_phase : s.cpu.At p
  memory : ∃ M acc, Accesses M acc p s.memory

theorem Linked.boot (program : Memory) : Linked (boot program) .waiting where
  at_phase := RiscvCpu.At.reset
  memory := ⟨program, ⟨0#32, 0#32, 0#4⟩, rfl⟩

theorem Linked.next {s : CoreAndMemory} {p : Phase} (h : Linked s p) (i : Input) :
    Linked (s.next i) (p.next s.cpu.decoded (s.cpu_input i)) where
  at_phase := h.at_phase.next (s.cpu_input i)
  memory := by
    obtain ⟨M, acc, hm⟩ := h.memory
    exact ⟨_, _, accesses_next h.at_phase hm⟩

/-- Nothing is under way while a PC waits. -/
theorem Linked.idle {s : CoreAndMemory} (h : Linked s .waiting) :
    s.memory = MemorySlave.idle s.memory.mem := by
  obtain ⟨M, acc, hm⟩ := h.memory
  have hidle : s.memory = MemorySlave.idle M := hm
  rw [hidle]
  rfl

/-! ### Runs -/

/-- The run of the core and the memory under given inputs, phase by phase. -/
structure PhaseRun (e : Lts.Execution CoreAndMemory Input) (ph : Nat → Phase) : Prop where
  linked : ∀ k, Linked (e.states k) (ph k)
  step : ∀ k, e.states (k + 1) = (e.states k).next (e.labels k)
  next : ∀ k, ph (k + 1) =
    (ph k).next (e.states k).cpu.decoded ((e.states k).cpu_input (e.labels k))

theorem phase_run {program : Memory} {e : Lts.Execution CoreAndMemory Input}
    (hv : (system program).valid_exec e) : ∃ ph, PhaseRun e ph ∧ ph 0 = .waiting := by
  have hall : ∀ k, ∃ p, Linked (e.states k) p := by
    refine hv.always (P := fun s => ∃ p, Linked s p) ?_ ?_
    · rintro s rfl
      exact ⟨.waiting, Linked.boot program⟩
    · rintro s i s' ⟨p, hp⟩ rfl
      exact ⟨_, hp.next i⟩
  -- the phase of each cycle is unique, so the choice follows the sequencer
  choose ph hph using hall
  refine ⟨ph, ⟨hph, hv.2, ?_⟩, ?_⟩
  · intro k
    have hstep : e.states (k + 1) = (e.states k).next (e.labels k) := hv.2 k
    have hnext := (hph k).next (e.labels k)
    rw [← hstep] at hnext
    exact (hph (k + 1)).at_phase.unique hnext.at_phase
  · have hinit : e.states 0 = boot program := hv.1
    have h0 := hph 0
    rw [hinit] at h0
    exact h0.at_phase.unique RiscvCpu.At.reset

/-- The memory of a run never delays anything for ever. -/
def Responsive (e : Lts.Execution CoreAndMemory Input) : Prop :=
  MemorySlave.Responsive (fun k => (e.states k).memory) (fun k => (e.labels k).choice)
    (fun k => (e.states k).m_axi (e.labels k))

section progress
variable {e : Lts.Execution CoreAndMemory Input} {ph : Nat → Phase} (hr : PhaseRun e ph)
include hr

theorem PhaseRun.m_axi (k : Nat) :
    (e.states k).m_axi (e.labels k) =
      (e.states k).cpu.port (e.labels k).cm.cm_pc_stall (ph k) :=
  (hr.linked k).at_phase.m_axi _

/-- No phase but `waiting` lasts for ever. -/
theorem PhaseRun.not_forever (hresp : Responsive e) {k : Nat} (hw : ph k ≠ .waiting) :
    ¬ ∀ j, k ≤ j → ph j = ph k := by
  intro hall
  -- in each phase the event it waits for comes, and moves the token
  generalize hp : ph k = p at hall hw
  have hstep : ∀ j, k ≤ j →
      p.next (e.states j).cpu.decoded ((e.states j).cpu_input (e.labels j)) = p := by
    intro j hkj
    have hnext := hr.next j
    rw [hall j hkj, hall (j + 1) (by omega)] at hnext
    exact hnext.symm
  have hmaster : ∀ j, k ≤ j → (e.states j).m_axi (e.labels j) =
      (e.states j).cpu.port (e.labels j).cm.cm_pc_stall p := by
    intro j hkj
    rw [hr.m_axi, hall j hkj]
  have hmem : ∀ j, k ≤ j → ∃ M acc, Accesses M acc p (e.states j).memory := by
    intro j hkj
    rw [← hall j hkj]
    exact (hr.linked j).memory
  cases p with
  | waiting => exact hw rfl
  | fetch_addr =>
    obtain ⟨j, hkj, hready⟩ := hresp.ar k (fun j hkj => by rw [hmaster j hkj]; rfl)
    have hready' : ((e.states j).cpu_input (e.labels j)).m_axi.arready = true := hready
    have h := hstep j hkj
    simp [Phase.next, hready'] at h
  | fetch_data =>
    obtain ⟨j, hkj, hv⟩ := hresp.r k (fun j hkj => by
      obtain ⟨M, acc, hm⟩ := hmem j hkj
      exact MemorySlave.Reading.outstanding hm)
    have hv' : ((e.states j).cpu_input (e.labels j)).m_axi.rvalid = true := hv
    have h := hstep j hkj
    simp [Phase.next, hv'] at h
  | decoded =>
    have h := hstep k (Nat.le_refl k)
    simp only [Phase.next] at h
    (repeat' split at h) <;> cases h
  | alu_result => cases hstep k (Nat.le_refl k)
  | load_addr =>
    obtain ⟨j, hkj, hready⟩ := hresp.ar k (fun j hkj => by rw [hmaster j hkj]; rfl)
    have hready' : ((e.states j).cpu_input (e.labels j)).m_axi.arready = true := hready
    have h := hstep j hkj
    simp [Phase.next, hready'] at h
  | load_data =>
    obtain ⟨j, hkj, hv⟩ := hresp.r k (fun j hkj => by
      obtain ⟨M, acc, hm⟩ := hmem j hkj
      exact MemorySlave.Reading.outstanding hm)
    have hv' : ((e.states j).cpu_input (e.labels j)).m_axi.rvalid = true := hv
    have h := hstep j hkj
    simp [Phase.next, hv'] at h
  | store_both =>
    obtain ⟨j, hkj, hready⟩ := hresp.aw k (fun j hkj => by rw [hmaster j hkj]; rfl)
    have hready' : ((e.states j).cpu_input (e.labels j)).m_axi.awready = true := hready
    have h := hstep j hkj
    simp only [Phase.next, hready', Bool.true_and] at h
    split at h <;> cases h
  | store_addr =>
    obtain ⟨j, hkj, hready⟩ := hresp.aw k (fun j hkj => by rw [hmaster j hkj]; rfl)
    have hready' : ((e.states j).cpu_input (e.labels j)).m_axi.awready = true := hready
    have h := hstep j hkj
    simp [Phase.next, hready'] at h
  | store_data =>
    obtain ⟨j, hkj, hready⟩ := hresp.w k (fun j hkj => by rw [hmaster j hkj]; rfl)
    have hready' : ((e.states j).cpu_input (e.labels j)).m_axi.wready = true := hready
    have h := hstep j hkj
    simp [Phase.next, hready'] at h
  | store_resp =>
    obtain ⟨j, hkj, hv⟩ := hresp.b k (fun j hkj => by
      obtain ⟨M, acc, hm⟩ := hmem j hkj
      exact MemorySlave.Writing.outstanding hm)
    have hv' : ((e.states j).cpu_input (e.labels j)).m_axi.bvalid = true := hv
    have h := hstep j hkj
    simp [Phase.next, hv'] at h
  | mem_result => cases hstep k (Nat.le_refl k)
  | next_pc => cases hstep k (Nat.le_refl k)

/-- An instruction that has been released retires. -/
theorem PhaseRun.retires (hresp : Responsive e) {k : Nat} (hw : ph k ≠ .waiting) :
    ∃ j, k ≤ j ∧ ph j = .next_pc ∧
      ∀ i, k ≤ i → i < j → ph i ≠ .waiting ∧ ph i ≠ .next_pc := by
  have hkeep : ∀ j, ph j ≠ .waiting → ph j ≠ .next_pc →
      ph (j + 1) ≠ .waiting ∧ (ph (j + 1)).rank ≤ (ph j).rank := by
    intro j hj hgo
    rw [hr.next j]
    exact ⟨Phase.next_ne_waiting hj hgo, Phase.rank_next hgo⟩
  have hfair : ∀ k, ph k ≠ .waiting →
      (∀ j, k ≤ j → ph j ≠ .waiting ∧ ph j ≠ .next_pc ∧ (ph j).rank = (ph k).rank) → False := by
    intro k hk hall
    exact hr.not_forever hresp hk (fun j hkj => Phase.rank_injective (hall j hkj).2.2)
  obtain ⟨j, hkj, hgo, -, hbefore⟩ :=
    Lts.exists_first_of_rank (fun j => (ph j).rank) hkeep hfair hw
  exact ⟨j, hkj, hgo, hbefore⟩

/-- A waiting PC is released in the first cycle with the stall low. -/
theorem PhaseRun.released {k : Nat} (hw : ph k = .waiting)
    (hstall : ∃ j, k ≤ j ∧ (e.labels j).cm.cm_pc_stall = false) :
    ∃ j, k ≤ j ∧ ph j = .waiting ∧ (e.labels j).cm.cm_pc_stall = false ∧
      ph (j + 1) ≠ .waiting := by
  have hkeep : ∀ j, k ≤ j → ph j = .waiting → ¬ (e.labels j).cm.cm_pc_stall = false →
      ph (j + 1) = .waiting := by
    intro j _ hj hgo
    have hst : ((e.states j).cpu_input (e.labels j)).cm.cm_pc_stall = true :=
      Bool.eq_true_of_not_eq_false hgo
    rw [hr.next j, hj]
    simp only [Phase.next, hst, if_true]
  obtain ⟨j, hkj, hgo, hj, -⟩ := Lts.exists_first hw hkeep (fun _ => hstall)
  refine ⟨j, hkj, hj, hgo, ?_⟩
  have hst : ((e.states j).cpu_input (e.labels j)).cm.cm_pc_stall = false := hgo
  rw [hr.next j, hj]
  simp only [Phase.next, hst]
  split
  · exact absurd ‹_› (by decide)
  · split <;> decide

/-- If the stall is released again and again, instructions retire again and
    again. -/
theorem PhaseRun.retires_again (hresp : Responsive e)
    (hstall : ∀ k, ∃ j, k ≤ j ∧ (e.labels j).cm.cm_pc_stall = false) (k : Nat) :
    ∃ j, k ≤ j ∧ ph j = .next_pc := by
  -- first a cycle with an instruction in flight, then its NEXT_PC
  have hleave : ∃ j, k ≤ j ∧ ph j ≠ .waiting := by
    by_cases hw : ph k = .waiting
    · obtain ⟨j, hkj, -, -, hj⟩ := hr.released hw (hstall k)
      exact ⟨j + 1, by omega, hj⟩
    · exact ⟨k, Nat.le_refl k, hw⟩
  obtain ⟨j, hkj, hj⟩ := hleave
  obtain ⟨j', hjj', hj', -⟩ := hr.retires hresp hj
  exact ⟨j', by omega, hj'⟩

end progress

end CoreAndMemory

end RiscvWorker
