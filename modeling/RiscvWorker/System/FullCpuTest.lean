import RiscvWorker.Library.PyText
import RiscvWorker.Library.WordArray
import RiscvWorker.System.EveryProgram
import RiscvWorker.System.Latency

/-! # test_full_cpu.py

  The simulated bench: a RAM with the data at 0 and the program behind the
  boot address, a core that starts when the stall is released, and a loop
  that looks at the `instruction` wire in every cycle until it sees
  `JAL x0, 0`. What the bench finds in the registers and in the RAM is then
  compared with the expected values.

  The wire shows the data lines of the bus as long as a fetch waits for its
  answer. If these happen to carry the loop instruction, left there by a load
  for instance, the bench stops too early; the verdict is sound for a RAM
  that never does this.
-/

namespace RiscvWorker

open AxiLite (Master Slave MemorySlave)
open ByteMemory
open Text (Byte ascii numeral)
open PyText (strip file_lines int_base16)
open Rv32i (ArchState)
open CoreAndMemory

/-! ### tb_utils -/

inductive TestFailure where
  | ValueError
  | OverflowError
  | IndexError
  | AssertionError (message : List Byte)
  deriving DecidableEq, Repr

/-- `n.to_bytes(4, byteorder="little")`, as a word. -/
def to_bytes (n : Int) : Except TestFailure Word :=
  if 0 ≤ n ∧ n < 2 ^ 32 then .ok (BitVec.ofInt 32 n) else .error .OverflowError

/-- A line of a hex file. -/
def hex_line (line : List Byte) : Except TestFailure Int :=
  match int_base16 line with
  | some n => .ok n
  | none => .error .ValueError

def nonblank_lines (text : List Byte) : List (List Byte) :=
  ((file_lines text).map strip).filter (· ≠ [])

def read_program_from_file (text : List Byte) : Except TestFailure (List Word) :=
  (nonblank_lines text).mapM fun line => hex_line line >>= to_bytes

def read_expected_values_from_file (text : List Byte) : Except TestFailure (List Int) :=
  (nonblank_lines text).mapM hex_line

/-- `hex(n)` -/
def py_hex (n : Int) : List Byte :=
  let digits := (numeral 16 n.natAbs).map fun c =>
    if 65 ≤ c.toNat ∧ c.toNat ≤ 90 then c + 32#8 else c
  (if n < 0 then ascii "-0x" else ascii "0x") ++ digits

def log_err (exp act : Int) : List Byte :=
  ascii "Expected " ++ py_hex exp ++ ascii ", got " ++ py_hex act

/-! ### The bench -/

/-- The contents of the files. -/
structure FullCpuTest where
  program : List Word
  exp_registers : List Int
  exp_memory : List Int
  init_memory : List Word

namespace FullCpuTest

def DATA_BASE_ADDR : Word := 0x00000000#32
def JAL_x0_0 : Word := 0x0000006F#32
def timeout_cycles : Nat := 1000

def read (program exp_registers exp_memory memory : List Byte) :
    Except TestFailure FullCpuTest := do
  let program ← read_program_from_file program
  let exp_registers ← read_expected_values_from_file exp_registers
  let exp_memory ← read_expected_values_from_file exp_memory
  let init_memory ← read_expected_values_from_file memory
  -- the values are converted when the RAM is loaded
  let init_memory ← init_memory.mapM to_bytes
  return { program, exp_registers, exp_memory, init_memory }

variable (t : FullCpuTest)

/-- The RAM at reset. -/
def ram : Memory :=
  store_words (store_words (fun _ => 0#8) DATA_BASE_ADDR t.init_memory) BOOT_ADDR t.program

/-- The `instruction` wire. -/
def instruction (s : CoreAndMemory) (i : Input) : Word := s.cpu.instruction (s.cpu_input i)

/-- The rounds of the loop before the one that breaks; the loop begins in
    cycle `start`. -/
def halt_reached (e : Lts.Execution CoreAndMemory Input) (start : Nat) : Option Nat :=
  (List.range timeout_cycles).find? fun k =>
    instruction (e.states (start + k)) (e.labels (start + k)) == JAL_x0_0

def timed_out : List Byte := ascii "Simulation timed out! Exceeded 1000 cycles."

def check (expected_val : Int) (actual_val : Word) : Except TestFailure Unit :=
  if actual_val.toNat = expected_val then .ok ()
  else .error (.AssertionError (log_err expected_val actual_val.toNat))

def check_register (s : CoreAndMemory) (reg_id : Nat) : Except TestFailure Unit :=
  match t.exp_registers[reg_id - 1]? with
  | some expected_val =>
    check expected_val (s.cpu.register_file.registers (BitVec.ofNat 5 reg_id))
  | none => .error .IndexError

def check_memory (s : CoreAndMemory) (entry : Int × Nat) : Except TestFailure Unit :=
  check entry.1 (load_word s.memory.mem (word_addr DATA_BASE_ADDR entry.2))

def verify (s : CoreAndMemory) : Except TestFailure Unit := do
  (List.range' 1 31).forM (t.check_register s)
  t.exp_memory.zipIdx.forM (check_memory s)

/-- The bench behind the files. -/
def run (e : Lts.Execution CoreAndMemory Input) (start : Nat) : Except TestFailure Unit :=
  match halt_reached e start with
  | some k =>
    -- the round that breaks is counted, too
    if k + 1 < timeout_cycles then t.verify (e.states (start + k))
    else .error (.AssertionError timed_out)
  | none => .error (.AssertionError timed_out)

end FullCpuTest

def test_riscv_full (program exp_registers exp_memory memory : List Byte)
    (e : Lts.Execution CoreAndMemory Input) (start : Nat) : Except TestFailure Unit := do
  let t ← FullCpuTest.read program exp_registers exp_memory memory
  t.run e start

namespace FullCpuTest

variable (t : FullCpuTest)

/-! ### Checks -/

/-- The instruction at the PC is the loop. -/
def Loops (A : ArchState) : Prop := read_word A.mem A.pc = JAL_x0_0

/-- Every register and every word of the memory is as expected. -/
structure Matches (A : ArchState) : Prop where
  registers : ∀ reg : BitVec 5, 1 ≤ reg.toNat →
    t.exp_registers[reg.toNat - 1]? = some ((A.x reg).toNat : Int)
  memory : ∀ k (h : k < t.exp_memory.length),
    ((load_word A.mem (word_addr DATA_BASE_ADDR k)).toNat : Int) = t.exp_memory[k]

theorem except_forM_ok {α ε : Type} {f : α → Except ε Unit} {xs : List α} :
    xs.forM f = .ok () ↔ ∀ x ∈ xs, f x = .ok () := by
  induction xs with
  | nil => exact iff_of_true rfl (by simp)
  | cons x xs ih =>
    rw [List.forall_mem_cons, ← ih]
    show (f x >>= fun _ => xs.forM f) = _ ↔ _
    cases f x with
    | error e => exact iff_of_false (by simp [bind, Except.bind]) (by simp)
    | ok u => exact ⟨fun h => ⟨rfl, h⟩, fun h => h.2⟩

theorem check_ok {expected : Int} {actual : Word} :
    check expected actual = .ok () ↔ (actual.toNat : Int) = expected := by
  unfold check
  split
  · rename_i h
    exact iff_of_true rfl h
  · rename_i h
    exact iff_of_false (by simp) h

theorem check_register_ok {s : CoreAndMemory} {reg : BitVec 5} (hreg : 1 ≤ reg.toNat) :
    t.check_register s reg.toNat = .ok () ↔
      t.exp_registers[reg.toNat - 1]? = some ((s.cpu.register_file.read reg).toNat : Int) := by
  have hne : reg ≠ 0#5 := by
    rintro rfl
    exact absurd hreg (by decide)
  unfold check_register
  rw [BitVec.ofNat_toNat, BitVec.setWidth_eq, RegisterFile.read, if_neg hne]
  cases t.exp_registers[reg.toNat - 1]? with
  | none => simp
  | some v =>
    show check v _ = _ ↔ _
    rw [check_ok, Option.some.injEq, eq_comm]

theorem check_memory_ok {s : CoreAndMemory} {expected : Int} {k : Nat} :
    check_memory s (expected, k) = .ok () ↔
      ((load_word s.memory.mem (word_addr DATA_BASE_ADDR k)).toNat : Int) = expected := check_ok

/-- The bench accepts what matches. -/
theorem verify_ok {s : CoreAndMemory} {A : ArchState} (hx : s.cpu.register_file.read = A.x)
    (hm : s.memory.mem = A.mem) : t.verify s = .ok () ↔ t.Matches A := by
  have hmatches : t.Matches A ↔ _ ∧ _ := ⟨fun h => ⟨h.registers, h.memory⟩, fun h => ⟨h.1, h.2⟩⟩
  have hverify : t.verify s = .ok () ↔
      (List.range' 1 31).forM (t.check_register s) = .ok () ∧
        t.exp_memory.zipIdx.forM (check_memory s) = .ok () := by
    unfold verify
    cases (List.range' 1 31).forM (t.check_register s) with
    | error e => exact iff_of_false (by simp [bind, Except.bind]) (by simp)
    | ok u => exact ⟨fun h => ⟨rfl, h⟩, fun h => h.2⟩
  rw [hverify, hmatches, except_forM_ok, except_forM_ok]
  refine and_congr ⟨fun h reg hreg => ?_, fun h i hi => ?_⟩ ⟨fun h k hk => ?_, ?_⟩
  · have hlt := reg.isLt
    rw [← hx]
    exact (t.check_register_ok hreg).mp (h _ (List.mem_range'_1.mpr (by omega)))
  · have hbounds := List.mem_range'_1.mp hi
    obtain ⟨reg, rfl⟩ : ∃ reg : BitVec 5, reg.toNat = i := by
      refine ⟨BitVec.ofNat 5 i, ?_⟩
      rw [BitVec.toNat_ofNat]
      omega
    rw [t.check_register_ok hbounds.1, hx]
    exact h reg hbounds.1
  · have hmem : (t.exp_memory[k], k) ∈ t.exp_memory.zipIdx :=
      List.mk_mem_zipIdx_iff_getElem?.mpr (List.getElem?_eq_getElem hk)
    rw [← hm]
    exact check_memory_ok.mp (h _ hmem)
  · rintro h ⟨word, k⟩ hmem
    obtain ⟨hlt, hword⟩ := List.mem_zipIdx' hmem
    have hexpected := h k hlt
    rw [← hword, ← hm] at hexpected
    exact check_memory_ok.mpr hexpected

/-! ### The wire -/

/-- An instruction arrives. -/
def arrives (s : CoreAndMemory) (i : Input) : Bool := s.cpu.instruction_valid (s.cpu_input i)

/-- Without an answer the data lines carry something else. -/
def Distinct (e : Lts.Execution CoreAndMemory Input) : Prop :=
  ∀ k, ((e.states k).memory.port (e.labels k).choice).rvalid = false →
    ((e.states k).memory.port (e.labels k).choice).rdata ≠ JAL_x0_0

section wire
variable {s : CoreAndMemory} {i : Input} {p : Phase} {A : ArchState}

theorem instruction_eq (h : s.cpu.At p) :
    instruction s i = if p = .fetch_data then (s.memory.port i.choice).rdata else 0#32 := by
  obtain ⟨-, -, -, -, -, ha, -⟩ := h.fields
  unfold instruction RiscvCpu.instruction MemoryArbiter.instruction
  rw [ha]
  cases p <;> rfl

theorem arrives_eq (h : s.cpu.At p) :
    arrives s i = (p == .fetch_data && (s.memory.port i.choice).rvalid) :=
  h.instruction_valid (s.cpu_input i)

/-- The bench sees the loop when it arrives. -/
theorem instruction_iff (h : Tracks s p A)
    (hlines : (s.memory.port i.choice).rvalid = false →
      (s.memory.port i.choice).rdata ≠ JAL_x0_0) :
    instruction s i = JAL_x0_0 ↔ arrives s i = true ∧ Loops A := by
  rw [instruction_eq h.at_phase, arrives_eq h.at_phase]
  by_cases hp : p = .fetch_data
  · subst hp
    rw [if_pos rfl, BEq.rfl, Bool.true_and]
    have hreading : MemorySlave.Reading A.mem s.cpu.pc s.memory := h.memory
    cases hv : (s.memory.port i.choice).rvalid with
    | false => exact iff_of_false (hlines hv) (by simp)
    | true =>
      rw [hreading.rdata hv, h.pc]
      exact ⟨fun hloop => ⟨rfl, hloop⟩, fun hloop => hloop.2⟩
  · rw [if_neg hp, beq_false_of_ne hp, Bool.false_and]
    exact iff_of_false (by decide) (by simp)

/-- While a fetch waits the memory holds what the state says. -/
theorem memory_of_arrives (h : Tracks s p A) (ha : arrives s i = true) : s.memory.mem = A.mem := by
  rw [arrives_eq h.at_phase, Bool.and_eq_true, beq_iff_eq] at ha
  obtain ⟨rfl, -⟩ := ha
  exact MemorySlave.Reading.mem_eq (show MemorySlave.Reading A.mem s.cpu.pc s.memory from h.memory)

end wire

/-! ### Arrivals -/

theorem is_fetched_next {p : Phase} {d : Decoded} {i : RiscvCpu.Input} (hn : p ≠ .next_pc)
    (hf : ¬ (p = .fetch_data ∧ i.m_axi.rvalid = true)) :
    (p.next d i).is_fetched = p.is_fetched := by
  cases p <;> simp only [Phase.next] <;> (repeat' split) <;> simp_all [Phase.is_fetched]

section runs
variable {e : Lts.Execution CoreAndMemory Input} {ph : Nat → Phase} (hr : PhaseRun e ph)
include hr

theorem arrives_iff (k : Nat) : arrives (e.states k) (e.labels k) = true ↔
    ph k = .fetch_data ∧ ((e.states k).memory.port (e.labels k).choice).rvalid = true := by
  rw [arrives_eq (hr.linked k).at_phase, Bool.and_eq_true, beq_iff_eq]

/-- Every instruction that arrives retires: the counts differ by the one that
    is executed. -/
theorem count_arrivals (hfirst : ph 0 = .waiting) (k : Nat) :
    e.count arrives k = e.count retires k + (ph k).is_fetched.toNat := by
  refine e.count_in_flight arrives retires (fun k => (ph k).is_fetched) ?_ ?_ ?_ ?_ k
  · rw [hfirst]
    rfl
  · intro k harrives
    obtain ⟨hf, hv⟩ := (arrives_iff hr k).mp harrives
    have hv' : ((e.states k).cpu_input (e.labels k)).m_axi.rvalid = true := hv
    refine ⟨by rw [hf]; rfl, ?_⟩
    rw [hr.next k, hf]
    simp [Phase.next, hv', Phase.is_fetched]
  · intro k hret
    have hn := (retires_iff hr k).mp hret
    refine ⟨by rw [hn]; rfl, ?_⟩
    rw [hr.next k, hn]
    rfl
  · intro k harrives hret
    rw [hr.next k]
    refine is_fetched_next (fun hn => ?_) (fun hf => ?_)
    · rw [(retires_iff hr k).mpr hn] at hret
      cases hret
    · rw [(arrives_iff hr k).mpr hf] at harrives
      cases harrives

theorem count_of_arrives (hfirst : ph 0 = .waiting) {k : Nat}
    (h : arrives (e.states k) (e.labels k) = true) : e.count arrives k = e.count retires k := by
  rw [count_arrivals hr hfirst, ((arrives_iff hr k).mp h).1]
  rfl

/-- An instruction that has retired has arrived. -/
theorem arrived_before (hfirst : ph 0 = .waiting) {m k : Nat} (hm : m < e.count retires k) :
    ∃ j, j < k ∧ arrives (e.states j) (e.labels j) = true ∧ e.count retires j = m := by
  have hcount := count_arrivals hr hfirst k
  obtain ⟨j, hjk, hj, hcountj⟩ := e.exists_count_of_lt arrives (n := m) (k := k) (by omega)
  exact ⟨j, hjk, hj, by rw [← hcountj, count_of_arrives hr hfirst hj]⟩

/-- It arrives once. -/
theorem arrives_once (hfirst : ph 0 = .waiting) {j k : Nat} (hjk : j < k)
    (hj : arrives (e.states j) (e.labels j) = true)
    (hk : arrives (e.states k) (e.labels k) = true) : e.count retires j < e.count retires k := by
  have hmono := e.count_mono arrives (j := j + 1) (k := k) (by omega)
  rw [e.count_succ_of_true arrives hj, count_of_arrives hr hfirst hj,
    count_of_arrives hr hfirst hk] at hmono
  omega

/-- Nothing arrives under a stall. -/
theorem waiting_of_stalled (hfirst : ph 0 = .waiting) {start : Nat}
    (hstalled : ∀ k, k < start → (e.labels k).cm.cm_pc_stall = true) {k : Nat} (hk : k ≤ start) :
    ph k = .waiting := by
  induction k with
  | zero => exact hfirst
  | succ k ih =>
    have hst : ((e.states k).cpu_input (e.labels k)).cm.cm_pc_stall = true :=
      hstalled k (by omega)
    rw [hr.next k, ih (by omega)]
    exact if_pos hst

theorem not_arrives_of_stalled (hfirst : ph 0 = .waiting) {start : Nat}
    (hstalled : ∀ k, k < start → (e.labels k).cm.cm_pc_stall = true) {k : Nat} (hk : k ≤ start) :
    ¬ arrives (e.states k) (e.labels k) = true := by
  rw [arrives_iff hr, waiting_of_stalled hr hfirst hstalled hk]
  rintro ⟨h, -⟩
  cases h

end runs

/-! ### The verdict -/

/-- The program reaches its loop with instruction `n`. -/
def Halts (A : Nat → ArchState) (n : Nat) : Prop := (∀ m, m < n → ¬ Loops (A m)) ∧ Loops (A n)

/-- Round `k` of the loop sees instruction `n` arrive. -/
structure SeenAt (e : Lts.Execution CoreAndMemory Input) (start n k : Nat) : Prop where
  arrives : arrives (e.states (start + k)) (e.labels (start + k)) = true
  count : e.count retires (start + k) = n

section verdict
variable {t} {e : Lts.Execution CoreAndMemory Input} {start : Nat}
  (hv : (system t.ram).valid_exec e) (hquiet : ∀ k, (e.labels k).cm.quiet)
  (hstalled : ∀ k, k < start → (e.labels k).cm.cm_pc_stall = true) (hlines : Distinct e)

/-- What the program does. -/
def expected (t : FullCpuTest) (n : Nat) : ArchState := (reference t.ram n).1

include hv hquiet hlines in
theorem sees_loop (k : Nat) : instruction (e.states k) (e.labels k) = JAL_x0_0 ↔
    arrives (e.states k) (e.labels k) = true ∧ Loops (t.expected (e.count retires k)) := by
  obtain ⟨p, hp⟩ := follows_run hv hquiet k
  exact instruction_iff hp.tracks (hlines k)

include hv hquiet hstalled hlines in
/-- The bench stops at the first loop instruction that arrives. -/
theorem halt_reached_iff {k : Nat} : halt_reached e start = some k ↔
    k < timeout_cycles ∧ ∃ n, SeenAt e start n k ∧ Halts t.expected n := by
  obtain ⟨ph, hr, hfirst⟩ := phase_run hv
  have hsees := sees_loop (t := t) hv hquiet hlines
  unfold halt_reached
  rw [List.find?_range_eq_some]
  simp only [beq_iff_eq, Bool.not_eq_true', beq_eq_false_iff_ne, List.mem_range]
  constructor
  · rintro ⟨hsee, hlt, hbefore⟩
    obtain ⟨harrives, hloops⟩ := (hsees _).mp hsee
    refine ⟨hlt, _, ⟨harrives, rfl⟩, fun m hm hm' => ?_, hloops⟩
    -- an earlier loop instruction would have been seen
    obtain ⟨j, hj, hjarrives, rfl⟩ := arrived_before hr hfirst hm
    have hstart : start < j := by
      by_contra hle
      exact not_arrives_of_stalled hr hfirst hstalled (by omega) hjarrives
    refine hbefore (j - start) (by omega) ?_
    rw [Nat.add_sub_cancel' (by omega)]
    exact (hsees j).mpr ⟨hjarrives, hm'⟩
  · rintro ⟨hlt, n, ⟨harrives, rfl⟩, hno, hloops⟩
    refine ⟨(hsees _).mpr ⟨harrives, hloops⟩, hlt, fun j hj hsee => ?_⟩
    obtain ⟨hjarrives, hjloops⟩ := (hsees _).mp hsee
    exact hno _ (arrives_once hr hfirst (by omega) hjarrives harrives) hjloops

include hv hquiet hstalled hlines in
/-- The bench passes iff it sees the loop in time and everything is as
    expected then. -/
theorem run_ok_iff : t.run e start = .ok () ↔
    ∃ n k, k + 1 < timeout_cycles ∧ SeenAt e start n k ∧ Halts t.expected n ∧
      t.Matches (t.expected n) := by
  have hreached := fun k => halt_reached_iff (k := k) hv hquiet hstalled hlines
  have hverify : ∀ n k, SeenAt e start n k →
      (t.verify (e.states (start + k)) = .ok () ↔ t.Matches (t.expected n)) := by
    rintro n k ⟨harrives, rfl⟩
    obtain ⟨p, hp⟩ := follows_run hv hquiet (start + k)
    exact t.verify_ok hp.tracks.x (memory_of_arrives hp.tracks harrives)
  unfold run
  cases hhalt : halt_reached e start with
  | none =>
    refine iff_of_false (by simp) ?_
    rintro ⟨n, k, hlt, hseen, hhalts, -⟩
    have hsome := (hreached k).mpr ⟨by omega, n, hseen, hhalts⟩
    rw [hhalt] at hsome
    cases hsome
  | some k =>
    obtain ⟨hlt, n, hseen, hhalts⟩ := (hreached k).mp hhalt
    dsimp only
    split
    · rename_i hin
      rw [hverify n k hseen]
      refine ⟨fun hm => ⟨n, k, hin, hseen, hhalts, hm⟩, ?_⟩
      rintro ⟨n', k', hlt', hseen', hhalts', hm⟩
      have hsome := (hreached k').mpr ⟨by omega, n', hseen', hhalts'⟩
      obtain rfl : k = k' := Option.some.inj (hhalt.symm.trans hsome)
      obtain rfl : n = n' := hseen.count.symm.trans hseen'.count
      exact hm
    · rename_i hout
      refine iff_of_false (by simp) ?_
      rintro ⟨n', k', hlt', hseen', hhalts', -⟩
      have hsome := (hreached k').mpr ⟨by omega, n', hseen', hhalts'⟩
      obtain rfl : k = k' := Option.some.inj (hhalt.symm.trans hsome)
      exact hout hlt'

include hv hstalled in
/-- A prompt RAM shows instruction `n` in time. -/
theorem seen_in_time {D n : Nat} (hprompt : Prompt D e)
    (hstart : ∀ k, start ≤ k → (e.labels k).cm.cm_pc_stall = false) :
    ∃ k, k < (n + 1) * (5 * D + 9) ∧ SeenAt e start n k := by
  obtain ⟨ph, hr, hfirst⟩ := phase_run hv
  have hmany := le_count_retires hr hprompt (t := start) (n := n + 1) (fun j hj _ => hstart j hj)
  have hn : n < e.count retires (start + (n + 1) * (5 * D + 9)) := by omega
  obtain ⟨j, hj, harrives, hcount⟩ := arrived_before hr hfirst hn
  have hlate : start < j := by
    by_contra hle
    exact not_arrives_of_stalled hr hfirst hstalled (by omega) harrives
  have hback : start + (j - start) = j := by omega
  exact ⟨j - start, by omega, by rw [hback]; exact harrives, by rw [hback]; exact hcount⟩

end verdict

/-- The bench with a RAM that delays nothing. -/
def eager_run (t : FullCpuTest) : Lts.Execution CoreAndMemory Input :=
  .of_inputs next (boot t.ram) fun _ => ⟨CmPort.running, MemorySlave.eager⟩

theorem eager_run_valid (t : FullCpuTest) : (system t.ram).valid_exec (eager_run t) :=
  ⟨rfl, fun _ => rfl⟩

theorem eager_run_prompt (t : FullCpuTest) : Prompt 1 (eager_run t) :=
  MemorySlave.eager_prompt (fun _ => rfl) (fun _ => rfl)

/-- A RAM without an answer shows zero. -/
theorem eager_run_distinct (t : FullCpuTest) : Distinct (eager_run t) := by
  intro k hv
  have hnil : ((eager_run t).states k).memory.replies = [] := by
    rw [← List.isEmpty_iff]
    simpa [MemorySlave.port, MemorySlave.eager, eager_run, Lts.Execution.of_inputs] using hv
  simp [MemorySlave.port, MemorySlave.eager, eager_run, Lts.Execution.of_inputs, JAL_x0_0] at hnil ⊢
  simp [hnil]

def halt_hex : List Byte := ascii "0000006f\n"

/-- Nothing is written. -/
def zeros_hex : List Byte := (List.replicate 31 (ascii "0\n")).flatten

def halts_at_once : FullCpuTest := ⟨[JAL_x0_0], List.replicate 31 0, [], []⟩

theorem halt_read : read halt_hex zeros_hex [] [] = .ok halts_at_once := by rfl

end FullCpuTest

end RiscvWorker
