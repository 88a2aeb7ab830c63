import RiscvWorker.Isa.Relocation
import RiscvWorker.System.FullCpuTest
import RiscvWorker.Worker.TestIsolation

/-! # The simulated bench and the worker

  Both platforms execute the same test cases. The bench has its data at 0,
  the worker at the address of the block RAM, and the program is 4 KiB behind
  the data on both; the worker takes the address of an expected offset for
  the offset itself. Here the worker's run is the bench's run, moved: what
  passes on the bench and moves passes on every board.
-/

namespace RiscvWorker

open ByteMemory
open Text (Byte)
open PyText (int_base16)
open Firmware (Board Wired)
open Rv32i (ArchState Displacement Displaced track)
open CoreAndMemory (Input)

namespace Host

/-! ### Files that both can read -/

/-- The test case, for the bench. -/
def TestCase.bench (t : TestCase) : FullCpuTest where
  program := as_words t.program
  exp_registers := t.expected_registers
  exp_memory := t.expected_memory
  init_memory := as_words t.initial_memory

theorem to_bytes_ok {n : Int} {w : Word} :
    to_bytes n = .ok w ↔ (0 ≤ n ∧ n < 2 ^ 32) ∧ w = BitVec.ofInt 32 n := by
  unfold to_bytes
  split
  · rename_i hrange
    rw [Except.ok.injEq]
    exact ⟨fun h => ⟨hrange, h.symm⟩, fun h => h.2.symm⟩
  · rename_i hrange
    refine ⟨fun h => ?_, fun h => absurd h.1 hrange⟩
    cases h

theorem mapM_to_bytes {ns : List Int} {ws : List Word} :
    ns.mapM to_bytes = .ok ws ↔ (∀ n ∈ ns, 0 ≤ n ∧ n < 2 ^ 32) ∧ ws = as_words ns := by
  induction ns generalizing ws with
  | nil =>
    refine ⟨fun h => ⟨by simp, (Except.ok.inj h).symm⟩, fun h => ?_⟩
    rw [h.2]
    rfl
  | cons n ns ih =>
    rw [List.mapM_cons, List.forall_mem_cons]
    refine except_bind_ok.trans ⟨fun h => ?_, fun h => ?_⟩
    · obtain ⟨w, hw, h⟩ := h
      obtain ⟨ws', hws', h⟩ := except_bind_ok.mp h
      obtain ⟨hn, rfl⟩ := to_bytes_ok.mp hw
      obtain ⟨hns, rfl⟩ := ih.mp hws'
      exact ⟨⟨hn, hns⟩, (Except.ok.inj h).symm⟩
    · obtain ⟨⟨hn, hns⟩, rfl⟩ := h
      exact ⟨_, to_bytes_ok.mpr ⟨hn, rfl⟩, except_bind_ok.mpr ⟨_, ih.mpr ⟨hns, rfl⟩, rfl⟩⟩

section lines
variable {lines : List (List Byte)} {ns : List Int}

theorem hex_line_ok {line : List Byte} {n : Int} (h : int_base16 line = some n) :
    hex_line line = .ok n := by
  unfold hex_line
  rw [h]

theorem mapM_hex_line (h : lines.mapM int_base16 = some ns) : lines.mapM hex_line = .ok ns := by
  induction lines generalizing ns with
  | nil =>
    rw [← Option.some.inj h]
    rfl
  | cons line lines ih =>
    rw [List.mapM_cons] at h ⊢
    obtain ⟨n, hn, h⟩ := Option.bind_eq_some_iff.mp h
    obtain ⟨ns', hns', h⟩ := Option.bind_eq_some_iff.mp h
    obtain rfl : n :: ns' = ns := Option.some.inj h
    rw [hex_line_ok hn, ih hns']
    rfl

theorem mapM_program (h : lines.mapM int_base16 = some ns) :
    (lines.mapM fun line => hex_line line >>= to_bytes) = ns.mapM to_bytes := by
  induction lines generalizing ns with
  | nil =>
    rw [← Option.some.inj h]
    rfl
  | cons line lines ih =>
    rw [List.mapM_cons] at h
    obtain ⟨n, hn, h⟩ := Option.bind_eq_some_iff.mp h
    obtain ⟨ns', hns', h⟩ := Option.bind_eq_some_iff.mp h
    obtain rfl : n :: ns' = ns := Option.some.inj h
    rw [List.mapM_cons, List.mapM_cons, hex_line_ok hn, ih hns']
    rfl

end lines

theorem hex_words_ok {text : List Byte} {ns : List Int} (h : hex_words text = .ok ns) :
    (nonblank_lines text).mapM int_base16 = some ns := by
  unfold hex_words at h
  split at h
  · rename_i words hwords
    rw [← Except.ok.inj h]
    exact hwords
  · cases h

/-- Both read the same from the files, but the bench wants words of 32 bits. -/
theorem read_bench {files : TestFiles} {t : TestCase} {b : FullCpuTest}
    (hparse : files.parse = .ok t) :
    FullCpuTest.read files.program files.expected_registers files.expected_memory files.memory =
        .ok b ↔
      (∀ n ∈ t.program ++ t.initial_memory, 0 ≤ n ∧ n < 2 ^ 32) ∧ b = t.bench := by
  obtain ⟨program, hprogram, hparse⟩ := except_bind_ok.mp hparse
  obtain ⟨initial_memory, hinitial, hparse⟩ := except_bind_ok.mp hparse
  obtain ⟨expected_registers, hregisters, hparse⟩ := except_bind_ok.mp hparse
  have hexpected : ∃ expected_memory, hex_words files.expected_memory = .ok expected_memory ∧
      t = ⟨program, initial_memory, expected_registers, expected_memory⟩ := by
    split at hparse
    · cases hparse
    · obtain ⟨expected_memory, hmemory, hparse⟩ := except_bind_ok.mp hparse
      exact ⟨expected_memory, hmemory, (Except.ok.inj hparse).symm⟩
  obtain ⟨expected_memory, hmemory, rfl⟩ := hexpected
  have hvalues : ∀ {text : List Byte} {ns : List Int}, hex_words text = .ok ns →
      read_expected_values_from_file text = .ok ns :=
    fun hns => mapM_hex_line (hex_words_ok hns)
  have hread : FullCpuTest.read files.program files.expected_registers files.expected_memory
      files.memory = (do
        let program ← program.mapM to_bytes
        let init_memory ← initial_memory.mapM to_bytes
        return ⟨program, expected_registers, expected_memory, init_memory⟩) := by
    unfold FullCpuTest.read read_program_from_file
    rw [mapM_program (hex_words_ok hprogram), hvalues hregisters, hvalues hmemory, hvalues hinitial]
    rfl
  rw [hread, List.forall_mem_append]
  refine except_bind_ok.trans ⟨fun h => ?_, fun h => ?_⟩
  · obtain ⟨words, hwords, h⟩ := h
    obtain ⟨memory, hmemory, h⟩ := except_bind_ok.mp h
    obtain ⟨hprogram32, rfl⟩ := mapM_to_bytes.mp hwords
    obtain ⟨hmemory32, rfl⟩ := mapM_to_bytes.mp hmemory
    exact ⟨⟨hprogram32, hmemory32⟩, (Except.ok.inj h).symm⟩
  · obtain ⟨⟨hprogram32, hmemory32⟩, rfl⟩ := h
    exact ⟨_, mapM_to_bytes.mpr ⟨hprogram32, rfl⟩,
      except_bind_ok.mpr ⟨_, mapM_to_bytes.mpr ⟨hmemory32, rfl⟩, rfl⟩⟩

/-! ### The same program, moved -/

/-- Word `k` behind the data is written on both platforms before the program
    starts. -/
def TestCase.prepares (t : TestCase) (k : Nat) : Bool :=
  k < 2048 && (k < t.initial_memory.length || k < t.expected_memory.length ||
    1024 ≤ k && k < 1024 + t.program.length)

/-- The bench at the start, and nothing is displaced. -/
def TestCase.start (t : TestCase) : ArchState × Displacement where
  fst := boot_state t.bench.ram
  snd.reg _ := 0#32
  snd.word a := if a.toNat % 4 = 0 ∧ t.prepares (a.toNat / 4) = true then some 0#32 else none

theorem length_as_words (words : List Int) : (as_words words).length = words.length :=
  List.length_map _

section images
variable {t : TestCase} {k : Nat}

/-- The words of the bench. -/
theorem load_bench (hprogram : t.program.length ≤ 1024) (hbelow : t.initial_memory.length ≤ 1024)
    (hk : k < 2048) :
    load_word t.bench.ram (word_addr 0#32 k) =
      if 1024 ≤ k ∧ k < 1024 + t.program.length then (as_words t.program).getD (k - 1024) 0#32
      else if k < t.initial_memory.length then (as_words t.initial_memory).getD k 0#32
      else 0#32 := by
  have hram : t.bench.ram =
      store_words (store_words (fun _ => 0#8) (word_addr 0#32 0) (as_words t.initial_memory))
        (word_addr 0#32 1024) (as_words t.program) := by
    rw [word_addr_zero, (by decide : word_addr 0#32 1024 = BOOT_ADDR)]
    rfl
  have hlen := length_as_words t.program
  have hlen' := length_as_words t.initial_memory
  have hzero : load_word (fun _ => 0#8) (word_addr 0#32 k) = 0#32 :=
    (by decide : word_of (fun _ => 0#8) = 0#32)
  rw [hram, load_word_store_words_at _ (by decide) (by omega) (by omega),
    load_word_store_words_at _ (by decide) (by omega) (by omega), hlen, hlen', hzero]
  simp only [Nat.zero_le, true_and, Nat.zero_add, Nat.sub_zero]

/-- The words of the worker. -/
theorem load_prepared (hfits : t.Fits) (hk : k < 2048) (A : ArchState) :
    load_word (prepared A t).mem (word_addr BRAM_BASE k) =
      if k < t.initial_memory.length then (as_words t.initial_memory).getD k 0#32
      else if 1024 ≤ k ∧ k < 1024 + t.program.length then
        (as_words t.program).getD (k - 1024) 0#32
      else if k < t.expected_memory.length then 0#32
      else load_word A.mem (word_addr BRAM_BASE k) := by
  have hmem : (prepared A t).mem =
      store_words (store_words (store_words A.mem (word_addr BRAM_BASE 0)
        (as_words (t.expected_memory.map fun _ => 0))) (word_addr BRAM_BASE 1024)
        (as_words t.program)) (word_addr BRAM_BASE 0) (as_words t.initial_memory) := by
    rw [word_addr_zero, ← boot_base_eq]
    rfl
  have hprogram := hfits.program
  have hinitial := hfits.initial_memory
  have hexpected := hfits.expected_memory
  have hlen := length_as_words t.program
  have hlen' := length_as_words t.initial_memory
  have hlen'' := length_as_words (t.expected_memory.map fun _ => 0)
  rw [List.length_map] at hlen''
  have hzeros : (as_words (t.expected_memory.map fun _ => 0)).getD k 0#32 = 0#32 := by
    simp only [as_words, List.map_map, List.getD_eq_getElem?_getD, List.getElem?_map]
    cases t.expected_memory[k]? <;> rfl
  rw [hmem, load_word_store_words_at _ (by decide) (by omega) (by omega),
    load_word_store_words_at _ (by decide) (by omega) (by omega),
    load_word_store_words_at _ (by decide) (by omega) (by omega), hlen, hlen', hlen'']
  simp only [Nat.zero_le, true_and, Nat.zero_add, Nat.sub_zero, hzeros]

end images

/-- The prepared worker is the bench, moved. -/
theorem TestCase.start_displaced {t : TestCase} (hfits : t.Fits)
    (hbelow : t.initial_memory.length ≤ 1024) (A : ArchState) :
    Displaced BRAM_BASE t.start.2 t.start.1 (prepared A t) where
  pc := (by decide : BOOT_BASE = BOOT_ADDR + BRAM_BASE)
  reg r := by
    have hcleared : (prepared A t).reg r = 0#32 := by
      have hlt := r.isLt
      by_cases hr : r = 0#5
      · exact if_pos hr
      · have hpos : 0 < r.toNat := Nat.pos_of_ne_zero fun h0 => hr (BitVec.eq_of_toNat_eq h0)
        show (if r = 0#5 then _ else (cleared A 31).x r) = _
        rw [if_neg hr]
        exact if_pos ⟨hpos, by omega⟩
    have hboot : (boot_state t.bench.ram).reg r = 0#32 := ite_self _
    rw [hcleared]
    show _ = (boot_state t.bench.ram).reg r + 0#32
    rw [hboot, BitVec.add_zero]
  mem := by
    refine ⟨fun a d ha => ?_, fun a d ha => ?_⟩
    · exact (Option.ite_none_right_eq_some.mp ha).1.1
    · obtain ⟨⟨hal, hknown⟩, hd⟩ := Option.ite_none_right_eq_some.mp ha
      obtain rfl := Option.some.inj hd
      have hk : a.toNat / 4 < 2048 := of_decide_eq_true (Bool.and_eq_true_iff.mp hknown).1
      have hmoved := word_addr_zero_add BRAM_BASE (a.toNat / 4)
      have hbench := load_bench hfits.program hbelow hk
      have hworker := load_prepared hfits hk A
      rw [word_addr_div hal] at hbench hmoved
      rw [BitVec.add_zero, hmoved, hworker]
      show _ = load_word t.bench.ram a
      rw [hbench]
      have hprepared := (Bool.and_eq_true_iff.mp hknown).2
      simp only [Bool.or_eq_true, Bool.and_eq_true, decide_eq_true_eq] at hprepared
      -- the data are below the program, so the order in which they are written is the same to them
      by_cases hprogram : 1024 ≤ a.toNat / 4 ∧ a.toNat / 4 < 1024 + t.program.length
      · rw [if_neg (by omega), if_pos hprogram, if_pos hprogram]
      · rw [if_neg hprogram, if_neg hprogram]
        by_cases hdata : a.toNat / 4 < t.initial_memory.length
        · rw [if_pos hdata, if_pos hdata]
        · rw [if_neg hdata, if_neg hdata, if_pos (by omega)]

/-! ### A run that moves -/

/-- The program comes to its loop, and does the same wherever it is. -/
structure TestCase.Moves (t : TestCase) (n : Nat) (x : ArchState × Displacement) : Prop where
  run : Lts.iterate (track BRAM_BASE) n t.start = some x
  running : ∀ k y, k < n → Lts.iterate (track BRAM_BASE) k t.start = some y →
    instruction y.1 ≠ 0x6F#32
  known : x.2.word x.1.pc = some 0#32
  loops : instruction x.1 = 0x6F#32

/-- The screen of the single steps, by the bench's run. -/
def TestCase.moved_line (t : TestCase) (k : Nat) : List Byte :=
  match Lts.iterate (track BRAM_BASE) k t.start with
  | some x => step_line k (x.1.pc + BRAM_BASE).toNat (instruction x.1).toNat
  | none => []

def TestCase.moved_steps (t : TestCase) (n : Nat) : List (List Byte) :=
  (List.range (n + 1)).map t.moved_line ++ [REACHED]

/-- What the worker takes for the expected value: the value itself and the
    address of the offset. -/
def Accepted (d : Word) : Prop := d = 0#32 ∨ d = BRAM_BASE

structure TestCase.Accepts (t : TestCase) (D : Displacement) : Prop where
  registers : ∀ r, Accepted (D.reg r)
  memory : ∀ k, k < t.expected_memory.length →
    ∀ d, D.word (word_addr 0#32 k) = some d → Accepted d

theorem asExpected_displaced {v d : Word} : AsExpected (v + d) v.toNat ↔ Accepted d := by
  unfold AsExpected Accepted BRAM_BASE
  rw [← BitVec.toNat_inj (y := 0#32), ← BitVec.toNat_inj (y := 0x40000000#32), BitVec.toNat_add,
    BitVec.toNat_ofNat, BitVec.toNat_ofNat]
  have hv := v.isLt
  have hd := d.isLt
  omega

/-- The bench's run and the worker's run side by side. -/
structure SideBySide (t : TestCase) (A : ArchState) (n : Nat)
    (run : Nat → ArchState × Displacement) (trace : Nat → ArchState) : Prop where
  steps : ∀ k, k < n → track BRAM_BASE (run k) = some (run (k + 1))
  tracked : ∀ k, k ≤ n → Lts.iterate (track BRAM_BASE) k t.start = some (run k)
  prepared : trace 0 = prepared A t
  moved : ∀ k, k < n → Rv32i.step (trace k) = some (trace (k + 1))
  displaced : ∀ k, k ≤ n → Displaced BRAM_BASE (run k).2 (run k).1 (trace k)

section moves
variable {t : TestCase} {n : Nat} {x : ArchState × Displacement} {A : ArchState}

theorem TestCase.Moves.side_by_side (h : t.Moves n x) (hfits : t.Fits)
    (hbelow : t.initial_memory.length ≤ 1024) (A : ArchState) :
    ∃ run trace, SideBySide t A n run trace ∧ run n = x := by
  obtain ⟨run, hsteps, htracked⟩ := Lts.exists_run_of_iterate h.run
  have hstart : run 0 = t.start := (Option.some.inj (htracked 0 (Nat.zero_le n))).symm
  have hdisplaced := TestCase.start_displaced hfits hbelow A
  rw [← hstart] at hdisplaced
  obtain ⟨trace, hprepared, hmoved, hall⟩ := hdisplaced.repeated hsteps (by decide)
  exact ⟨run, trace, ⟨hsteps, htracked, hprepared, hmoved, hall⟩,
    Option.some.inj ((htracked n (Nat.le_refl n)).symm.trans h.run)⟩

variable {run : Nat → ArchState × Displacement} {trace : Nat → ArchState}
  (hs : SideBySide t A n run trace) (h : t.Moves n (run n))
include hs

theorem SideBySide.start : run 0 = t.start :=
  (Option.some.inj (hs.tracked 0 (Nat.zero_le n))).symm

/-- The bench executes the run. -/
theorem SideBySide.reference {k : Nat} (hk : k ≤ n) :
    (CoreAndMemory.reference t.bench.ram k).1 = (run k).1 := by
  induction k with
  | zero =>
    rw [hs.start]
    rfl
  | succ k ih =>
    obtain ⟨-, hstep, -⟩ := Rv32i.track_eq_some (hs.steps k hk)
    rw [← ih (by omega)] at hstep
    exact CoreAndMemory.reference_of_rv32i hstep

include h

/-- Every instruction is at a word that was prepared. -/
theorem SideBySide.known {k : Nat} (hk : k ≤ n) : (run k).2.word (run k).1.pc = some 0#32 := by
  rcases Nat.lt_or_eq_of_le hk with hlt | rfl
  · exact (Rv32i.track_eq_some (hs.steps k hlt)).1
  · exact h.known

theorem SideBySide.instruction {k : Nat} (hk : k ≤ n) :
    instruction (trace k) = Host.instruction (run k).1 :=
  (hs.displaced k hk).instruction (hs.known h hk)

theorem SideBySide.aligned {k : Nat} (hk : k ≤ n) : (run k).1.pc.toNat % 4 = 0 :=
  (hs.displaced k hk).mem.aligned _ _ (hs.known h hk)

theorem SideBySide.loops_iff {k : Nat} (hk : k ≤ n) :
    FullCpuTest.Loops (t.bench.expected k) ↔ Host.instruction (run k).1 = 0x6F#32 := by
  unfold FullCpuTest.Loops FullCpuTest.expected
  rw [hs.reference hk, read_word_eq_load_word (hs.aligned h hk)]
  rfl

theorem SideBySide.fetched {k : Nat} (hk : k ≤ n) : in_bram BRAM_BASE (trace k).pc = true := by
  have hknown := Rv32i.known_words hs.steps hk (run k).1.pc
  rw [hs.known h hk, hs.start] at hknown
  obtain ⟨d, hd⟩ := Option.isSome_iff_exists.mp hknown.symm
  obtain ⟨⟨hal, hprepares⟩, -⟩ := Option.ite_none_right_eq_some.mp hd
  have hlt : (run k).1.pc.toNat / 4 < 2048 :=
    of_decide_eq_true (Bool.and_eq_true_iff.mp hprepares).1
  have hin : in_bram BRAM_BASE (word_addr BRAM_BASE _) = true := in_bram_data hlt
  rw [← word_addr_zero_add, word_addr_div hal] at hin
  rw [(hs.displaced k hk).pc]
  exact hin

theorem SideBySide.single_steps (hn : n < 1000) : SingleSteps (Host.prepared A t) n trace where
  start := hs.prepared
  step := hs.moved
  fetched k hk _ := hs.fetched h hk
  running k hk := by
    rw [hs.instruction h (by omega)]
    exact h.running k _ hk (hs.tracked k (by omega))
  ends := by
    refine .inl ⟨hn, ?_⟩
    rw [hs.instruction h (Nat.le_refl n)]
    exact h.loops

/-- The lines of the single steps. -/
theorem SideBySide.steps_report (hn : n < 1000) : steps_report n trace = t.moved_steps n := by
  unfold Host.steps_report TestCase.moved_steps
  rw [if_pos hn]
  refine congrArg (· ++ [REACHED]) (List.map_congr_left fun k hk => ?_)
  have hk' : k ≤ n := Nat.lt_succ_iff.mp (List.mem_range.mp hk)
  unfold round_line TestCase.moved_line
  rw [hs.tracked k hk', hs.instruction h hk', (hs.displaced k hk').pc]

omit h in
/-- A word that will be compared is known. -/
theorem SideBySide.expected_known (hfits : t.Fits) {k : Nat} (hk : k < t.expected_memory.length) :
    ∃ d, (run n).2.word (word_addr 0#32 k) = some d := by
  have hlen := hfits.expected_memory
  have hvalue : (word_addr 0#32 k).toNat = 4 * k := by
    unfold word_addr
    rw [BitVec.zero_add, BitVec.toNat_ofNat]
    omega
  have hprepares : t.prepares ((word_addr 0#32 k).toNat / 4) = true := by
    rw [hvalue, Nat.mul_div_cancel_left k (by decide)]
    simp [TestCase.prepares, hk]
    omega
  have hstart : t.start.2.word (word_addr 0#32 k) = some 0#32 :=
    if_pos ⟨word_addr_aligned rfl k, hprepares⟩
  have hknown := Rv32i.known_words hs.steps (Nat.le_refl n) (word_addr 0#32 k)
  rw [hs.start, hstart] at hknown
  exact Option.isSome_iff_exists.mp hknown

omit h in
/-- Where the bench finds what it expects, the worker accepts what is
    displaced by nothing or by the base. -/
theorem SideBySide.passes_iff (hfits : t.Fits) (hregs : t.expected_registers.length = 31)
    (hmatches : t.bench.Matches (run n).1) : t.Passes (trace n) ↔ t.Accepts (run n).2 := by
  have hd := hs.displaced n (Nat.le_refl n)
  have hregister : ∀ (reg : BitVec 5) (hlt : reg.toNat - 1 < t.expected_registers.length),
      1 ≤ reg.toNat → (AsExpected ((trace n).reg reg) t.expected_registers[reg.toNat - 1] ↔
        Accepted ((run n).2.reg reg)) := by
    intro reg hlt hreg
    have hne : reg ≠ 0#5 := by
      rintro rfl
      exact absurd hreg (by decide)
    have hvalue : t.expected_registers[reg.toNat - 1] = (((run n).1.reg reg).toNat : Int) := by
      have hexpected := hmatches.registers reg hreg
      rw [show t.bench.exp_registers = t.expected_registers from rfl,
        List.getElem?_eq_getElem hlt] at hexpected
      unfold ArchState.reg
      rw [if_neg hne]
      exact Option.some.inj hexpected
    rw [hvalue, hd.reg]
    exact asExpected_displaced
  have hword : ∀ k (hk : k < t.expected_memory.length) d,
      (run n).2.word (word_addr 0#32 k) = some d →
      (AsExpected (load_word (trace n).mem (word_addr BRAM_BASE k)) t.expected_memory[k] ↔
        Accepted d) := by
    intro k hk d hd'
    have hexpected : _ = t.expected_memory[k] := hmatches.memory k hk
    rw [← hexpected, ← word_addr_zero_add, hd.mem.word _ _ hd']
    exact asExpected_displaced
  constructor
  · intro hpasses
    refine ⟨fun r => ?_, fun k hk d hd' => (hword k hk d hd').mp (hpasses.memory k hk)⟩
    have hlt := r.isLt
    by_cases hr : 1 ≤ r.toNat
    · exact (hregister r (by omega) hr).mp (hpasses.registers r (by omega) hr)
    · -- x0 is zero on both platforms
      obtain rfl : r = 0#5 := BitVec.eq_of_toNat_eq (by simp; omega)
      have hzero := hd.reg 0#5
      rw [show (trace n).reg 0#5 = 0#32 from rfl, show (run n).1.reg 0#5 = 0#32 from rfl,
        BitVec.zero_add] at hzero
      exact .inl hzero.symm
  · intro haccepts
    refine ⟨fun reg hlt hreg => (hregister reg hlt hreg).mpr (haccepts.registers reg), ?_⟩
    intro k hk
    obtain ⟨d, hd'⟩ := hs.expected_known hfits hk
    exact (hword k hk d hd').mpr (haccepts.memory k hk d hd')

end moves

/-! ### Both platforms -/

/-- A run of the bench, with whatever delays its RAM has. -/
structure BenchRun (t : FullCpuTest) (e : Lts.Execution CoreAndMemory Input) (start : Nat) :
    Prop where
  valid : (CoreAndMemory.system t.ram).valid_exec e
  quiet : ∀ k, (e.labels k).cm.quiet
  stalled : ∀ k, k < start → (e.labels k).cm.cm_pc_stall = true
  distinct : FullCpuTest.Distinct e

/-- The bench waits for fewer instructions than cycles. -/
theorem BenchRun.count_retires_le {t : FullCpuTest} {e : Lts.Execution CoreAndMemory Input}
    {start : Nat} (h : BenchRun t e start) (k : Nat) :
    e.count CoreAndMemory.retires (start + k) ≤ k := by
  obtain ⟨ph, hr, hfirst⟩ := CoreAndMemory.phase_run h.valid
  have hwaiting : ∀ j, j ≤ start → ph j = .waiting :=
    fun j hj => FullCpuTest.waiting_of_stalled hr hfirst h.stalled hj
  have hnone : e.count CoreAndMemory.retires start = e.count CoreAndMemory.retires 0 := by
    refine e.count_eq_of_forall_false _ (Nat.zero_le start) fun j _ hj => ?_
    rw [← Bool.not_eq_true, CoreAndMemory.retires_iff hr, hwaiting j (by omega)]
    decide
  have hle := CoreAndMemory.count_retires_le hr (Nat.le_add_right start k)
  rw [hwaiting start (Nat.le_refl start), hnone, Lts.Execution.count_zero] at hle
  simp only [Phase.progress] at hle
  omega

theorem eager_bench (t : FullCpuTest) : BenchRun t (FullCpuTest.eager_run t) 0 where
  valid := t.eager_run_valid
  quiet _ := ⟨rfl, rfl, rfl⟩
  stalled k hk := absurd hk (Nat.not_lt_zero k)
  distinct := t.eager_run_distinct

/-- The test case passes on the bench and moves: it ends after `n`
    instructions in a state with these displacements. -/
structure SimulatedPass (files : TestFiles) (t : TestCase) (n : Nat)
    (x : ArchState × Displacement) : Prop where
  parse : files.parse = .ok t
  fits : t.Fits
  -- the data are below the program
  below : t.initial_memory.length ≤ 1024
  moves : t.Moves n x
  pass : ∃ e start, BenchRun t.bench e start ∧
    test_riscv_full files.program files.expected_registers files.expected_memory files.memory e
      start = .ok ()

/-- A short program that moves and matches passes on a prompt bench. -/
theorem SimulatedPass.of_matches {files : TestFiles} {t : TestCase} {n : Nat}
    {x : ArchState × Displacement} (hparse : files.parse = .ok t) (hfits : t.Fits)
    (hbelow : t.initial_memory.length ≤ 1024) (hmoves : t.Moves n x)
    (hwords : ∀ n ∈ t.program ++ t.initial_memory, 0 ≤ n ∧ n < 2 ^ 32)
    (hmatches : t.bench.Matches x.1) (hshort : (n + 1) * 14 < 1000) :
    SimulatedPass files t n x := by
  refine ⟨hparse, hfits, hbelow, hmoves, _, 0, eager_bench t.bench, ?_⟩
  have hbench := eager_bench t.bench
  obtain ⟨k, hk, hseen⟩ := FullCpuTest.seen_in_time (n := n) hbench.valid hbench.stalled
    t.bench.eager_run_prompt fun _ _ => rfl
  obtain ⟨run, trace, hs, rfl⟩ := hmoves.side_by_side hfits hbelow (boot_state t.bench.ram)
  refine except_bind_ok.mpr ⟨_, (read_bench hparse).mpr ⟨hwords, rfl⟩, ?_⟩
  refine (FullCpuTest.run_ok_iff hbench.valid hbench.quiet hbench.stalled hbench.distinct).mpr
    ⟨n, k, Nat.lt_of_le_of_lt hk hshort, hseen, ⟨fun m hm hloop => ?_, ?_⟩, ?_⟩
  · exact hmoves.running m _ hm (hs.tracked m (by omega))
      ((hs.loops_iff hmoves (by omega)).mp hloop)
  · exact (hs.loops_iff hmoves (Nat.le_refl n)).mpr hmoves.loops
  · unfold FullCpuTest.expected
    rw [hs.reference (Nat.le_refl n)]
    exact hmatches

section platforms
variable {files : TestFiles} {t : TestCase} {n : Nat} {x : ArchState × Displacement}
  (h : SimulatedPass files t n x)
include h

/-- The bench sees the same loop, in time, and matches. -/
theorem SimulatedPass.bench : n < 1000 ∧ t.bench.Matches x.1 := by
  obtain ⟨e, start, hbench, hpass⟩ := h.pass
  obtain ⟨b, hread, hrun⟩ := except_bind_ok.mp hpass
  obtain ⟨-, rfl⟩ := (read_bench h.parse).mp hread
  obtain ⟨m, k, hk, hseen, hhalts, hmatches⟩ :=
    (FullCpuTest.run_ok_iff hbench.valid hbench.quiet hbench.stalled hbench.distinct).mp hrun
  obtain ⟨run, trace, hs, rfl⟩ := h.moves.side_by_side h.fits h.below (boot_state t.bench.ram)
  have hloops : ∀ j, j ≤ n → _ := fun j => hs.loops_iff h.moves
  have hmn : m = n := by
    obtain hlt | heq | hlt := Nat.lt_trichotomy m n
    · refine absurd ((hloops m (by omega)).mp hhalts.2) ?_
      exact h.moves.running m _ hlt (hs.tracked m (by omega))
    · exact heq
    · exact absurd ((hloops n (Nat.le_refl n)).mpr h.moves.loops) (hhalts.1 n hlt)
  subst hmn
  refine ⟨?_, ?_⟩
  · rw [← hseen.count]
    exact Nat.lt_of_le_of_lt (hbench.count_retires_le k) (Nat.lt_of_succ_lt hk)
  · rw [← hs.reference (Nat.le_refl m)]
    exact hmatches

/-- Whatever state a worker is prepared in, the program makes its single steps
    there, and what is reported about them follows from the bench's run. -/
theorem SimulatedPass.on_worker (A : ArchState) :
    ∃ trace, SingleSteps (prepared A t) n trace ∧
      test_report t n trace = preparation ++ t.moved_steps n ++ mismatches t (trace n) ∧
      (mismatches t (trace n) = [] ↔ t.Accepts x.2) := by
  obtain ⟨hn, hmatches⟩ := h.bench
  obtain ⟨run, trace, hs, rfl⟩ := h.moves.side_by_side h.fits h.below A
  refine ⟨trace, hs.single_steps h.moves hn, ?_, ?_⟩
  · unfold test_report
    rw [hs.steps_report h.moves hn]
  · have hregs := registers_of_parse h.parse
    rw [mismatches_eq_nil hregs]
    exact hs.passes_iff h.fits hregs hmatches

theorem SimulatedPass.self_contained : t.SelfContained := by
  refine ⟨h.fits, fun A => ?_⟩
  obtain ⟨trace, hsteps, -⟩ := h.on_worker A
  exact ⟨n, trace, hsteps⟩

theorem SimulatedPass.predicts (haccepts : t.Accepts x.2) :
    Predicts (preparation ++ t.moved_steps n) files := by
  intro t' hparse A n' trace' hsteps
  obtain rfl : t = t' := Except.ok.inj (h.parse.symm.trans hparse)
  obtain ⟨trace, hsteps', hreport, hnil⟩ := h.on_worker A
  rw [test_report_congr hsteps hsteps', hreport, hnil.mpr haccepts, List.append_nil]

end platforms

def store_registers : TestFiles where
  program := Text.ascii "00000197\n0101D193\n01019193\n0041A303\n0061A623\n0000006F\n"
  memory := Text.ascii "00000001\n00000008\n00000003\n00000004\n"
  expected_registers := (List.replicate 5 (Text.ascii "00000000\n")).flatten ++
    Text.ascii "00000008\n" ++ (List.replicate 25 (Text.ascii "00000000\n")).flatten
  expected_memory := Text.ascii "00000001\n00000008\n00000003\n00000008\n"

def store_case : TestCase where
  program := [0x00000197, 0x0101D193, 0x01019193, 0x0041A303, 0x0061A623, 0x0000006F]
  initial_memory := [1, 8, 3, 4]
  expected_registers := [0, 0, 0, 0, 0, 8] ++ List.replicate 25 0
  expected_memory := [1, 8, 3, 8]

theorem store_parse : store_registers.parse = .ok store_case := by rfl

def store_run (k : Nat) : ArchState × Displacement :=
  (Lts.iterate (track BRAM_BASE) k store_case.start).getD store_case.start

theorem store_tracked {k : Nat} (hk : k < 6) :
    Lts.iterate (track BRAM_BASE) k store_case.start = some (store_run k) := by
  have hsome : ∀ k, k < 6 → (Lts.iterate (track BRAM_BASE) k store_case.start).isSome = true := by
    decide +kernel
  obtain ⟨x, hx⟩ := Option.isSome_iff_exists.mp (hsome k hk)
  unfold store_run
  rw [hx, Option.getD_some]

theorem store_moves : store_case.Moves 5 (store_run 5) where
  run := store_tracked (by decide)
  running k y hk hy := by
    have hrunning : ∀ k, k < 5 → instruction (store_run k).1 ≠ 0x6F#32 := by decide +kernel
    obtain rfl : store_run k = y := Option.some.inj ((store_tracked (by omega)).symm.trans hy)
    exact hrunning k hk
  known := by decide +kernel
  loops := by decide +kernel

theorem store_matches : store_case.bench.Matches (store_run 5).1 where
  registers := by decide +kernel
  memory := by decide +kernel

theorem store_accepts : store_case.Accepts (store_run 5).2 where
  registers := by
    unfold Accepted
    decide +kernel
  memory k hk d hd := by
    have hplain : ∀ k, k < 4 → (store_run 5).2.word (word_addr 0#32 k) = some 0#32 := by
      decide +kernel
    rw [hplain k hk] at hd
    exact .inl (Option.some.inj hd).symm

theorem store_pass : SimulatedPass store_registers store_case 5 (store_run 5) :=
  .of_matches store_parse ⟨by decide, by decide, by decide⟩ (by decide) store_moves (by decide)
    store_matches (by decide)

def store_tree : Directory (Directory TestFiles) :=
  [(Text.ascii "s_type", some [(Text.ascii "store_registers", some store_registers)])]

end Host

end RiscvWorker
