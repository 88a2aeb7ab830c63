import RiscvWorker.Worker.Upload

/-! # Test cases on the worker

  `execute_test_case` prepares the registers and the block RAM, lets the
  program run step by step until it loops on itself, and compares what is
  left. Here its screen is what the instruction set semantics says about the
  program: the report of a test case is computed from a run of RV32I alone.
-/

namespace RiscvWorker

open ByteMemory
open Text (Byte ascii)
open Interaction (Program wp wp_seq wp_mono)
open Firmware (Board Wired)
open Rv32i (ArchState)

namespace Host

/-! ### The block RAM on the client's side -/

/-- `base_addr` and `boot_addr` as words. -/
def BRAM_BASE : Word := 0x40000000#32
def BOOT_BASE : Word := 0x40001000#32

theorem in_bram_of_lt {j k : Nat} (h : j + k < 2048) :
    in_bram BRAM_BASE (word_addr (word_addr BRAM_BASE j) k) = true := by
  have hsub : word_addr (word_addr BRAM_BASE j) k - BRAM_BASE = BitVec.ofNat 32 (4 * (j + k)) := by
    unfold word_addr
    rw [BitVec.add_assoc, BitVec.add_comm, BitVec.add_sub_cancel, ← BitVec.ofNat_add, Nat.mul_add]
  have htoNat : (word_addr (word_addr BRAM_BASE j) k).toNat = 0x40000000 + 4 * (j + k) := by
    unfold word_addr BRAM_BASE
    rw [BitVec.toNat_add, BitVec.toNat_add, BitVec.toNat_ofNat, BitVec.toNat_ofNat,
      BitVec.toNat_ofNat]
    omega
  have hmask : word_addr (word_addr BRAM_BASE j) k &&& 0x3#32 = 0#32 := by
    apply BitVec.eq_of_toNat_eq
    rw [BitVec.toNat_and, htoNat]
    show _ &&& (2 ^ 2 - 1) = 0
    rw [Nat.and_two_pow_sub_one_eq_mod]
    omega
  unfold in_bram BRAM_RANGE
  rw [hsub, hmask, BitVec.toNat_ofNat, decide_eq_true (by omega)]
  rfl

theorem boot_base_eq : BOOT_BASE = word_addr BRAM_BASE 1024 := by decide

theorem in_bram_data {k : Nat} (hk : k < 2048) :
    in_bram BRAM_BASE (word_addr BRAM_BASE k) = true := by
  have h := in_bram_of_lt (j := 0) (k := k) (by omega)
  rwa [word_addr_zero] at h

theorem in_bram_boot {k : Nat} (hk : k < 1024) :
    in_bram BRAM_BASE (word_addr BOOT_BASE k) = true := by
  rw [boot_base_eq]
  exact in_bram_of_lt (by omega)

/-! ### Loops -/

section loops
variable {A : ArchState} {out : List (List Byte)} {E : Failure → Bench → Prop}
  {Q : Unit → Bench → Prop}

/-- A loop that changes nothing but the screen. -/
theorem wp_each_prints {bram : Word} {β : Type} {body : β → Script Unit} {xs : List β}
    (lines : β → List (List Byte))
    (hbody : ∀ x ∈ xs, ∀ out, wp (client_service bram) (body x)
      (fun _ w => w = at_rest A (out ++ lines x)) E (at_rest A out))
    (hQ : Q () (at_rest A (out ++ xs.flatMap lines))) :
    wp (client_service bram) (Program.each body xs) Q E (at_rest A out) := by
  refine wp_mono (Q := fun _ w => w = at_rest A (out ++ (xs.take xs.length).flatMap lines)) ?_
    (fun _ _ he => he) ?_
  · rintro - w rfl
    rwa [List.take_length]
  · refine Interaction.wp_each (I := fun k w => w = at_rest A (out ++ (xs.take k).flatMap lines))
      ?_ (by simp)
    rintro k hk w rfl
    have h := hbody xs[k] (List.getElem_mem hk) (out ++ (xs.take k).flatMap lines)
    rw [List.take_succ_eq_append_getElem hk, List.flatMap_append, List.flatMap_singleton,
      ← List.append_assoc]
    exact h

/-- A script up to something that it prints. -/
theorem wp_print_then {bram : Word} {α : Type} {text : List Byte} {f : Unit → Script α}
    {P : α → Bench → Prop}
    (h : wp (client_service bram) (f ()) P E (at_rest A (out ++ [text]))) :
    wp (client_service bram) (Script.print text >>= f) P E (at_rest A out) :=
  wp_seq (wp_print h)

/-! ### Registers -/

/-- The registers x1 to x`k` are zero. -/
def cleared (A : ArchState) (k : Nat) : ArchState :=
  { A with x := fun r => if 0 < r.toNat ∧ r.toNat ≤ k then 0#32 else A.x r }

theorem cleared_zero (A : ArchState) : cleared A 0 = A := by
  have hx : (fun r : BitVec 5 => if 0 < r.toNat ∧ r.toNat ≤ 0 then 0#32 else A.x r) = A.x := by
    funext r
    exact if_neg (by omega)
  show ({ A with x := _ } : ArchState) = A
  rw [hx]

theorem cleared_succ (A : ArchState) {reg : BitVec 5} {k : Nat} (hreg : reg.toNat = k + 1) :
    (cleared A k).set_reg reg 0#32 = cleared A (k + 1) := by
  have hne : reg ≠ 0#5 := by
    rintro rfl
    exact absurd hreg (Nat.succ_ne_zero k).symm
  have hx : (fun r : BitVec 5 => if r = reg then 0#32 else (cleared A k).x r) =
      fun r : BitVec 5 => if 0 < r.toNat ∧ r.toNat ≤ k + 1 then 0#32 else A.x r := by
    funext r
    have hr : r = reg ↔ r.toNat = k + 1 := by rw [← hreg, BitVec.toNat_inj]
    show (if r = reg then 0#32 else if 0 < r.toNat ∧ r.toNat ≤ k then 0#32 else A.x r) = _
    by_cases h : r.toNat = k + 1
    · rw [if_pos (hr.mpr h), if_pos (by omega)]
    · rw [if_neg (fun hc => h (hr.mp hc))]
      congr 1
      simp only [eq_iff_iff]
      omega
  unfold ArchState.set_reg
  rw [if_neg hne, hx]
  rfl

/-- The register of round `k` of a loop over x1 to x31. -/
theorem register_of_round {k : Nat} (hk : k < (List.range' 1 31).length) :
    ∃ reg : BitVec 5, reg.toNat = k + 1 ∧ (List.range' 1 31)[k] = reg.toNat := by
  have hk' := hk
  rw [List.length_range'] at hk'
  have hreg : (BitVec.ofNat 5 (k + 1)).toNat = k + 1 := by
    rw [BitVec.toNat_ofNat]
    omega
  refine ⟨BitVec.ofNat 5 (k + 1), hreg, ?_⟩
  rw [List.getElem_range', hreg]
  omega

theorem wp_clear_registers {bram : Word} (hQ : Q () (at_rest (cleared A 31) out)) :
    wp (client_service bram)
      (Program.each (fun i : Nat => Script.call (.set_reg i 0)) (List.range' 1 31)) Q E
      (at_rest A out) := by
  refine wp_mono (Q := fun _ w => w = at_rest (cleared A (List.range' 1 31).length) out) ?_
    (fun _ _ he => he) ?_
  · rintro - w rfl
    exact hQ
  · refine Interaction.wp_each (I := fun k w => w = at_rest (cleared A k) out) ?_
      (by rw [cleared_zero])
    rintro k hk w rfl
    obtain ⟨reg, hreg, hround⟩ := register_of_round hk
    have hne : reg ≠ 0#5 := by
      rintro rfl
      exact absurd hreg (Nat.succ_ne_zero k).symm
    rw [hround]
    refine wp_set_reg hne 0 ?_
    rw [← cleared_succ A hreg]
    rfl

/-! ### Single steps -/

/-- The instruction at the PC. -/
def instruction (A : ArchState) : Word := load_word A.mem A.pc

/-- The program in the block RAM runs for `n` instructions, and then loops on
    itself or has used up its rounds. -/
structure SingleSteps (A : ArchState) (n : Nat) (trace : Nat → ArchState) : Prop where
  start : trace 0 = A
  step : ∀ k, k < n → Rv32i.step (trace k) = some (trace (k + 1))
  fetched : ∀ k, k ≤ n → k < 1000 → in_bram BRAM_BASE (trace k).pc = true
  running : ∀ k, k < n → instruction (trace k) ≠ 0x6F#32
  ends : n < 1000 ∧ instruction (trace n) = 0x6F#32 ∨ n = 1000

/-- The line of round `k`. -/
def round_line (trace : Nat → ArchState) (k : Nat) : List Byte :=
  step_line k (trace k).pc.toNat (instruction (trace k)).toNat

def steps_report (n : Nat) (trace : Nat → ArchState) : List (List Byte) :=
  if n < 1000 then (List.range (n + 1)).map (round_line trace) ++ [REACHED]
  else (List.range n).map (round_line trace)

theorem instruction_eq_loop (A : ArchState) :
    ((instruction A).toNat : Int) = JAL_x0_0 ↔ instruction A = 0x6F#32 := by
  rw [← BitVec.toNat_inj, BitVec.toNat_ofNat]
  unfold JAL_x0_0
  omega

theorem wp_single_steps {n : Nat} {trace : Nat → ArchState} (h : SingleSteps A n trace)
    (hQ : Q () (at_rest (trace n) (out ++ steps_report n trace))) :
    wp (client_service BRAM_BASE) (Program.each_until step_round (List.range 1000)) Q E
      (at_rest A out) := by
  have hn : n ≤ 1000 := by
    rcases h.ends with ⟨hlt, -⟩ | rfl
    · omega
    · omega
  refine wp_mono (Q := fun _ w => w = at_rest (trace n) (out ++ steps_report n trace)) ?_
    (fun _ _ he => he) ?_
  · rintro - w rfl
    exact hQ
  refine Interaction.wp_each_until
    (Q := fun w => w = at_rest (trace n) (out ++ steps_report n trace))
    (I := fun k w => k ≤ n ∧
      w = at_rest (trace k) (out ++ (List.range k).map (round_line trace))) ?_ ?_ ?_
  · rintro k hk w ⟨hkn, rfl⟩
    rw [List.length_range] at hk
    have hin := h.fetched k hkn hk
    have hlines : out ++ (List.range (k + 1)).map (round_line trace) =
        out ++ (List.range k).map (round_line trace) ++ [round_line trace k] := by
      rw [List.range_succ, List.map_append, List.append_assoc]
      rfl
    rw [List.getElem_range]
    refine wp_seq (wp_get_pc (wp_seq (wp_read_word hin (wp_print_then ?_))))
    show wp _ (if ((instruction (trace k)).toNat : Int) = JAL_x0_0 then _ else _) _ _ _
    by_cases hloop : instruction (trace k) = 0x6F#32
    · -- the infinite loop ends the run
      have hlast : k = n := by
        by_contra hne
        exact h.running k (by omega) hloop
      subst hlast
      rw [if_pos ((instruction_eq_loop _).mpr hloop)]
      refine wp_print_then ?_
      show at_rest _ _ = _
      unfold steps_report
      rw [if_pos hk, ← List.append_assoc, hlines]
      rfl
    · have hlt : k < n := by
        rcases h.ends with ⟨-, hends⟩ | rfl
        · refine Nat.lt_of_le_of_ne hkn ?_
          rintro rfl
          exact hloop hends
        · exact hk
      rw [if_neg (fun hc => hloop ((instruction_eq_loop _).mp hc))]
      refine wp_seq (wp_step (h.step k hlt) ?_)
      refine ⟨hlt, ?_⟩
      rw [hlines]
      rfl
  · rintro w ⟨hle, rfl⟩
    rw [List.length_range] at hle
    have hend : n = 1000 := by omega
    unfold steps_report
    rw [List.length_range, if_neg (by omega), hend]
  · refine ⟨Nat.zero_le n, ?_⟩
    rw [h.start]
    simp

/-! ### Checks -/

/-- What is printed about a word that is left. -/
def word_report (actual : Word) (expected : Int) (title : List Byte) : List (List Byte) :=
  if (actual.toNat : Int) = expected ∨ (actual.toNat : Int) = relocated base_addr expected then []
  else [mismatch base_addr actual.toNat expected title]

def register_report (A : ArchState) (expected_registers : List Int) (i : Nat) : List (List Byte) :=
  word_report (A.reg (BitVec.ofNat 5 i)) (expected_registers.getD (i - 1) 0) (register_title i)

def memory_report (A : ArchState) (entry : Int × Nat) : List (List Byte) :=
  word_report (load_word A.mem (word_addr BRAM_BASE entry.2)) entry.1
    (memory_title (data_addr + entry.2 * 4))

theorem wp_expect_word_equal {bram : Word} (actual : Word) (expected : Int) (title : List Byte)
    (hQ : Q () (at_rest A (out ++ word_report actual expected title))) :
    wp (client_service bram) (expect_word_equal base_addr actual.toNat expected title) Q E
      (at_rest A out) := by
  unfold expect_word_equal
  unfold word_report at hQ
  simp only [List.mem_cons, List.not_mem_nil, or_false]
  split
  · rename_i hno
    rw [if_neg hno] at hQ
    exact wp_print hQ
  · rename_i hyes
    rw [if_pos (not_not.mp hyes), List.append_nil] at hQ
    exact hQ

theorem wp_check_registers {bram : Word} (expected : List Int)
    (hQ : Q () (at_rest A (out ++ (List.range' 1 31).flatMap (register_report A expected)))) :
    wp (client_service bram) (Program.each (check_register expected) (List.range' 1 31)) Q E
      (at_rest A out) := by
  refine wp_each_prints (register_report A expected) ?_ hQ
  intro i hi out
  have hlt : i < 32 := by
    have hmem := List.mem_range'_1.mp hi
    omega
  have hreg : (BitVec.ofNat 5 i).toNat = i := by
    rw [BitVec.toNat_ofNat]
    omega
  have hget : wp (client_service bram) (Script.value (.get_reg (BitVec.ofNat 5 i).toNat))
      (fun v w => wp (client_service bram)
        (expect_word_equal base_addr v (expected.getD (i - 1) 0) (register_title i))
        (fun _ w => w = at_rest A (out ++ register_report A expected i)) E w) E (at_rest A out) :=
    wp_get_reg _ (wp_expect_word_equal _ _ _ rfl)
  rw [hreg] at hget
  exact wp_seq hget

theorem wp_check_memory {words : List Int} (hfit : words.length ≤ 2048)
    (hQ : Q () (at_rest A (out ++ words.zipIdx.flatMap (memory_report A)))) :
    wp (client_service BRAM_BASE) (Program.each check_memory words.zipIdx) Q E
      (at_rest A out) := by
  refine wp_each_prints (memory_report A) ?_ hQ
  rintro ⟨expected_word, i⟩ hmem out
  have hi : i < words.length := by simpa using List.snd_lt_of_mem_zipIdx hmem
  have hbase : BRAM_BASE.toNat = 0x40000000 := rfl
  have hvalue := @word_addr_value BRAM_BASE i (by omega)
  unfold check_memory
  dsimp only
  show wp _ (Script.value (.read_word ((BRAM_BASE.toNat : Int) + i * 4)) >>= _) _ _ _
  rw [← hvalue]
  exact wp_seq (wp_read_word (in_bram_data (by omega)) (wp_expect_word_equal _ _ _ rfl))

end loops

/-! ### A whole test case -/

/-- It fits into the block RAM, the program behind the data. -/
structure TestCase.Fits (t : TestCase) : Prop where
  program : t.program.length ≤ 1024
  initial_memory : t.initial_memory.length ≤ 2048
  expected_memory : t.expected_memory.length ≤ 2048

/-- The state in which the program starts. -/
def prepared (A : ArchState) (t : TestCase) : ArchState :=
  let zeroed := uploaded (cleared A 31) BRAM_BASE (as_words (t.expected_memory.map fun _ => 0))
  let loaded := uploaded zeroed BOOT_BASE (as_words t.program)
  { uploaded loaded BRAM_BASE (as_words t.initial_memory) with pc := BOOT_BASE }

def preparation : List (List Byte) :=
  [ascii "Setting all registers to zero before the test", ascii "resetting memory",
    ascii "Setting initial memory values before the test",
    ascii "Stopping core and setting PC to boot address"]

/-- What is left is compared in order: the registers, then the memory. -/
def mismatches (t : TestCase) (A : ArchState) : List (List Byte) :=
  (List.range' 1 31).flatMap (register_report A t.expected_registers) ++
    t.expected_memory.zipIdx.flatMap (memory_report A)

/-- The screen of a test case. -/
def test_report (t : TestCase) (n : Nat) (trace : Nat → ArchState) : List (List Byte) :=
  preparation ++ steps_report n trace ++ mismatches t (trace n)

section test_case
variable {out : List (List Byte)} {E : Failure → Bench → Prop} {Q : Unit → Bench → Prop}
  {files : TestFiles}

/-- Files that cannot be read: the worker is stopped, and that is all. -/
theorem wp_execute_malformed {bram : Word} {e : Failure} (hfiles : files.parse = .error e)
    {w : Bench} (hE : ∀ w', w.worker.Later w' → E e (at_rest w'.state w.stdout)) :
    wp (client_service bram) (execute_test_case files) Q E w := by
  refine wp_seq (wp_stop fun w' hlater => ?_)
  rw [hfiles]
  exact hE w' hlater

theorem wp_execute_test_case {t : TestCase} (hfiles : files.parse = .ok t) (hfits : t.Fits)
    {w : Bench} (h : ∀ w', w.worker.Later w' → ∃ n trace,
      SingleSteps (prepared w'.state t) n trace ∧
      Q () (at_rest (trace n) (w.stdout ++ test_report t n trace))) :
    wp (client_service BRAM_BASE) (execute_test_case files) Q E w := by
  refine wp_seq (wp_stop fun w' hlater => ?_)
  obtain ⟨n, trace, hsteps, hQ⟩ := h w' hlater
  have hbase : BRAM_BASE.toNat = 0x40000000 := rfl
  have hboot : BOOT_BASE.toNat = 0x40001000 := rfl
  have hprogram := hfits.program
  have hinitial := hfits.initial_memory
  have hexpected := hfits.expected_memory
  rw [hfiles]
  refine wp_print_then (wp_seq (wp_clear_registers ?_))
  refine wp_print_then (wp_seq (@wp_write_words _ BRAM_BASE _ _ _ _
    (fun k hk => in_bram_data (by omega)) (by omega) (fun _ => 0) _ ?_))
  refine wp_print_then (wp_seq (@wp_upload_words _ BOOT_BASE _ _ _ _
    (fun k hk => in_bram_boot (by omega)) (by omega) _ false ?_))
  refine wp_seq (@wp_upload_words _ BRAM_BASE _ _ _ _
    (fun k hk => in_bram_data (by omega)) (by omega) _ false ?_)
  refine wp_print_then (wp_seq (wp_stop fun w₁ hlater₁ => ?_))
  obtain rfl := hlater₁.of_halted rfl
  refine wp_seq (wp_set_pc BOOT_BASE ?_)
  show wp _ _ _ _ (at_rest (prepared w'.state t) _)
  refine wp_seq (wp_single_steps hsteps ?_)
  refine wp_seq (wp_check_registers _ ?_)
  refine wp_check_memory hexpected ?_
  simpa [test_report, preparation, mismatches, at_rest] using hQ

end test_case

/-! ### Verdicts -/

/-- A word that is left is as expected: the expected value itself, or the
    address of the expected offset. -/
def AsExpected (actual : Word) (expected : Int) : Prop :=
  (actual.toNat : Int) = expected ∨ (actual.toNat : Int) = (expected + 0x40000000) % 2 ^ 32

theorem word_report_eq_nil {actual : Word} {expected : Int} {title : List Byte} :
    word_report actual expected title = [] ↔ AsExpected actual expected := by
  unfold word_report
  show _ ↔ (actual.toNat : Int) = expected ∨ (actual.toNat : Int) = relocated base_addr expected
  split
  · rename_i h
    exact iff_of_true rfl h
  · rename_i h
    exact iff_of_false (List.cons_ne_nil _ _) h

theorem register_report_eq_nil {A : ArchState} {expected : List Int} {reg : BitVec 5}
    (hreg : reg.toNat - 1 < expected.length) :
    register_report A expected reg.toNat = [] ↔ AsExpected (A.reg reg) expected[reg.toNat - 1] := by
  unfold register_report
  rw [word_report_eq_nil, BitVec.ofNat_toNat, BitVec.setWidth_eq, List.getD_eq_getElem?_getD,
    List.getElem?_eq_getElem hreg, Option.getD_some]

theorem memory_report_eq_nil {A : ArchState} {word : Int} {k : Nat} :
    memory_report A (word, k) = [] ↔ AsExpected (load_word A.mem (word_addr BRAM_BASE k)) word :=
  word_report_eq_nil

/-- Every register and every word of the memory is as expected. -/
structure TestCase.Passes (t : TestCase) (A : ArchState) : Prop where
  registers : ∀ (reg : BitVec 5) (h : reg.toNat - 1 < t.expected_registers.length),
    1 ≤ reg.toNat → AsExpected (A.reg reg) t.expected_registers[reg.toNat - 1]
  memory : ∀ k (h : k < t.expected_memory.length),
    AsExpected (load_word A.mem (word_addr BRAM_BASE k)) t.expected_memory[k]

/-- Nothing is reported exactly if the test case passes. -/
theorem mismatches_eq_nil {t : TestCase} (hregs : t.expected_registers.length = 31)
    (A : ArchState) : mismatches t A = [] ↔ t.Passes A := by
  have hpasses : t.Passes A ↔ _ ∧ _ := ⟨fun h => ⟨h.registers, h.memory⟩, fun h => ⟨h.1, h.2⟩⟩
  rw [hpasses]
  unfold mismatches
  rw [List.append_eq_nil_iff, List.flatMap_eq_nil_iff, List.flatMap_eq_nil_iff]
  refine and_congr ⟨fun h reg _ hreg => ?_, fun h i hi => ?_⟩ ⟨fun h k hk => ?_, ?_⟩
  · have hlt := reg.isLt
    have hmem : reg.toNat ∈ List.range' 1 31 := List.mem_range'_1.mpr (by omega)
    exact (register_report_eq_nil (by omega)).mp (h _ hmem)
  · have hbounds := List.mem_range'_1.mp hi
    obtain ⟨reg, rfl⟩ : ∃ reg : BitVec 5, reg.toNat = i := by
      refine ⟨BitVec.ofNat 5 i, ?_⟩
      rw [BitVec.toNat_ofNat]
      omega
    exact (register_report_eq_nil (by omega)).mpr (h reg (by omega) hbounds.1)
  · have hmem : (t.expected_memory[k], k) ∈ t.expected_memory.zipIdx :=
      List.mk_mem_zipIdx_iff_getElem?.mpr (List.getElem?_eq_getElem hk)
    exact memory_report_eq_nil.mp (h _ hmem)
  · rintro h ⟨word, k⟩ hmem
    obtain ⟨hlt, hword⟩ := List.mem_zipIdx' hmem
    have hexpected := h k hlt
    rw [← hword] at hexpected
    exact memory_report_eq_nil.mpr hexpected

theorem registers_of_parse {files : TestFiles} {t : TestCase} (h : files.parse = .ok t) :
    t.expected_registers.length = 31 := by
  obtain ⟨program, -, h⟩ := except_bind_ok.mp h
  obtain ⟨initial_memory, -, h⟩ := except_bind_ok.mp h
  obtain ⟨expected_registers, -, h⟩ := except_bind_ok.mp h
  by_cases hlen : expected_registers.length = 31
  · rw [if_neg (not_not.mpr hlen)] at h
    obtain ⟨expected_memory, -, h⟩ := except_bind_ok.mp h
    rw [← Except.ok.inj h]
    exact hlen
  · rw [if_pos hlen] at h
    cases h

/-- The real client executes a test case. -/
theorem test_case_run {H : Type} {D : Nat} {b : Board H} {machine : H → Machine}
    (hw : Wired D b machine) (hbram : b.XPAR_XBRAM_0_BASEADDR = BRAM_BASE) {s : Session H}
    {w : Bench} (hs : s.Holds machine w) {files : TestFiles} {t : TestCase}
    (hfiles : files.parse = .ok t) (hfits : t.Fits)
    (hruns : ∀ w', w.worker.Later w' → ∃ n trace, SingleSteps (prepared w'.state t) n trace) :
    ∃ s' w' n trace, (execute_test_case files).run (Operation.exec b) s = some (.ok (), s') ∧
      w.worker.Later w' ∧ SingleSteps (prepared w'.state t) n trace ∧
      s'.stdout = s.stdout ++ test_report t n trace ∧
      s'.Holds machine (at_rest (trace n) s'.stdout) := by
  have hwp := wp_execute_test_case (w := w) (E := fun _ _ => False)
    (Q := fun _ w₁ => ∃ w' n trace, w.worker.Later w' ∧ SingleSteps (prepared w'.state t) n trace ∧
      w₁ = at_rest (trace n) (w.stdout ++ test_report t n trace)) hfiles hfits
    (fun w' hlater => by
      obtain ⟨n, trace, hsteps⟩ := hruns w' hlater
      exact ⟨n, trace, hsteps, w', n, trace, hlater, hsteps, rfl⟩)
  rw [← hbram] at hwp
  obtain ⟨r, s', w₁, hrun, hholds, hr⟩ := (client_implements hw).run_of_wp hs hwp
  cases r with
  | error e => exact hr.elim
  | ok a =>
    obtain ⟨w', n, trace, hlater, hsteps, rfl⟩ := hr
    have hstdout : s'.stdout = s.stdout ++ test_report t n trace := by
      rw [hholds.stdout, hs.stdout]
      rfl
    refine ⟨s', w', n, trace, hrun, hlater, hsteps, hstdout, ?_⟩
    rwa [hholds.stdout]

/-- A program that does nothing. -/
def idle_files : TestFiles where
  program := ascii "0000006F\n"
  memory := []
  expected_registers := (List.replicate 31 (ascii "00000000\n")).flatten
  expected_memory := []

def idle_case : TestCase := ⟨[0x6F], [], List.replicate 31 0, []⟩

theorem idle_case_steps (A : ArchState) :
    SingleSteps (prepared A idle_case) 0 fun _ => prepared A idle_case where
  start := rfl
  step k hk := absurd hk (Nat.not_lt_zero k)
  fetched _ _ _ := by
    show in_bram BRAM_BASE BOOT_BASE = true
    decide
  running k hk := absurd hk (Nat.not_lt_zero k)
  ends := by
    refine .inl ⟨by omega, ?_⟩
    show load_word (store_words _ BOOT_BASE (as_words [0x6F])) BOOT_BASE = 0x6F#32
    have hload := load_word_store_words (store_words A.mem BRAM_BASE [])
      (by decide : BOOT_BASE.toNat % 4 = 0) (by decide : 4 * (as_words [0x6F]).length ≤ 2 ^ 32)
      (by decide : 0 < (as_words [0x6F]).length)
    rwa [word_addr_zero] at hload

end Host

end RiscvWorker
