import RiscvWorker.Isa.Footprint
import RiscvWorker.Worker.TestSeries

/-! # Test cases do not see each other

  Nothing is cleared between two test cases but the registers and the words
  that will be compared, so a program may find what another one has left
  behind. A test case is closed if its program reads only what was prepared
  for it or what it has written itself. One run of RV32I, from any state,
  tells whether it is, and then predicts the screen of this test case on
  every board, whatever was executed before.
-/

namespace RiscvWorker

open ByteMemory
open Text (Byte)
open Firmware (Board Wired)
open Rv32i (ArchState Agree Place Within reads written)

namespace Host

/-! ### One run of single steps -/

/-- The run is a function of the state. -/
theorem SingleSteps.unique {A : ArchState} {n n' : Nat} {trace trace' : Nat → ArchState}
    (h : SingleSteps A n trace) (h' : SingleSteps A n' trace') :
    n = n' ∧ ∀ k, k ≤ n → trace k = trace' k := by
  have hsame : ∀ k, k ≤ n → k ≤ n' → trace k = trace' k := by
    intro k
    induction k with
    | zero => exact fun _ _ => h.start.trans h'.start.symm
    | succ k ih =>
      intro hk hk'
      have hstep := h.step k hk
      rw [ih (by omega) (by omega), h'.step k hk'] at hstep
      exact (Option.some.inj hstep).symm
  -- neither run stops before the other
  have hle : ∀ {m m' : Nat} {tr tr' : Nat → ArchState}, SingleSteps A m tr → SingleSteps A m' tr' →
      (∀ k, k ≤ m → k ≤ m' → tr k = tr' k) → m' ≤ m := by
    intro m m' tr tr' hm hm' hs
    by_contra hlt
    rcases hm.ends with ⟨-, hloop⟩ | rfl
    · rw [hs m (Nat.le_refl m) (by omega)] at hloop
      exact hm'.running m (by omega) hloop
    · rcases hm'.ends with ⟨hm'lt, -⟩ | rfl
      · omega
      · omega
  have hn : n = n' :=
    Nat.le_antisymm (hle h' h fun k hk hk' => (hsame k hk' hk).symm) (hle h h' hsame)
  exact ⟨hn, fun k hk => hsame k hk (hn ▸ hk)⟩

/-! ### Closed test cases -/

/-- The bytes that are written before the program starts. -/
def TestCase.bytes_prepared (t : TestCase) : Set Word :=
  bytes BRAM_BASE (4 * t.expected_memory.length) ∪ bytes BOOT_BASE (4 * t.program.length) ∪
    bytes BRAM_BASE (4 * t.initial_memory.length)

/-- The registers, too. -/
def TestCase.places (t : TestCase) : Set Place :=
  Set.range Place.reg ∪ Place.byte '' t.bytes_prepared

/-- Whatever the worker was in before, what was prepared is the same. -/
theorem prepared_agree (t : TestCase) (A B : ArchState) :
    Agree t.places (prepared A t) (prepared B t) where
  pc := rfl
  reg r _ := by
    have hlt := r.isLt
    show (if r = 0#5 then _ else (cleared A 31).x r) = if r = 0#5 then _ else (cleared B 31).x r
    split
    · rfl
    · rename_i hr
      have hpos : 0 < r.toNat := by
        refine Nat.pos_of_ne_zero fun h0 => hr ?_
        exact BitVec.eq_of_toNat_eq h0
      have hclear : ∀ C : ArchState, (cleared C 31).x r = 0#32 := fun C =>
        if_pos ⟨hpos, by omega⟩
      rw [hclear A, hclear B]
  mem a ha := by
    obtain ⟨b, hb, hba⟩ := ha.resolve_left (by simp)
    obtain rfl := Place.byte.inj hba
    have h₀ : Set.EqOn A.mem B.mem ∅ := fun _ h => h.elim
    have h₁ := store_words_congr h₀ BRAM_BASE (as_words (t.expected_memory.map fun _ => 0))
    have h₂ := store_words_congr h₁ BOOT_BASE (as_words t.program)
    have h₃ := store_words_congr h₂ BRAM_BASE (as_words t.initial_memory)
    simp only [Set.empty_union, as_words, List.length_map] at h₃
    exact h₃ hb

/-- The program reads only what was prepared or what it has written. -/
def TestCase.Reads (t : TestCase) (n : Nat) (trace : Nat → ArchState) : Prop :=
  ∀ k, k ≤ n → k < 1000 → reads (trace k) ⊆ t.places ∪ written trace k

/-- There is one state in which this is so. -/
def TestCase.Closed (t : TestCase) : Prop :=
  t.Fits ∧ ∃ A n trace, SingleSteps (prepared A t) n trace ∧ t.Reads n trace

section closed
variable {t : TestCase} {A B : ArchState} {n : Nat} {trace : Nat → ArchState}

theorem instruction_congr {S : Set Place} (h : Agree S A B) (hreads : reads A ⊆ S) :
    instruction A = instruction B := by
  unfold instruction
  rw [load_word_congr (h.eqOn (Set.subset_union_left.trans hreads)), h.pc]

theorem mismatches_congr {S : Set Place} (h : Agree S A B) (hS : t.places ⊆ S) :
    mismatches t A = mismatches t B := by
  have hregs : register_report A t.expected_registers = register_report B t.expected_registers := by
    funext i
    unfold register_report
    rw [h.reg _ (hS (.inl ⟨_, rfl⟩))]
  have hmem : ∀ entry ∈ t.expected_memory.zipIdx,
      memory_report A entry = memory_report B entry := by
    rintro ⟨word, k⟩ hentry
    have hk : k < t.expected_memory.length := by simpa using List.snd_lt_of_mem_zipIdx hentry
    unfold memory_report
    rw [load_word_congr (h.eqOn ?_)]
    rintro - ⟨b, ⟨j, hj, rfl⟩, rfl⟩
    refine hS (.inr ⟨_, .inl (.inl ⟨4 * k + j, by omega, ?_⟩), rfl⟩)
    rw [word_addr, BitVec.add_assoc, ← BitVec.ofNat_add]
  unfold mismatches
  rw [hregs, List.flatMap_congr hmem]

/-- The run can be repeated from any state, and nothing on the screen is
    different. -/
theorem SingleSteps.repeated (hsteps : SingleSteps (prepared A t) n trace)
    (hreads : t.Reads n trace) (B : ArchState) :
    ∃ trace', SingleSteps (prepared B t) n trace' ∧
      test_report t n trace' = test_report t n trace := by
  have hn : n ≤ 1000 := by
    rcases hsteps.ends with ⟨hlt, -⟩ | rfl
    · omega
    · omega
  have hwithin : Within t.places trace n := fun k hk => hreads k (by omega) (by omega)
  have hstart : Agree t.places (trace 0) (prepared B t) := by
    rw [hsteps.start]
    exact prepared_agree t A B
  obtain ⟨trace', hfirst, hsteps', hagree⟩ := hstart.repeated hsteps.step hwithin
  have hinstruction : ∀ k, k ≤ n → k < 1000 → instruction (trace k) = instruction (trace' k) :=
    fun k hk hlt => instruction_congr (hagree k hk) (hreads k hk hlt)
  refine ⟨trace', ⟨hfirst, hsteps', ?_, ?_, ?_⟩, ?_⟩
  · intro k hk hlt
    rw [← (hagree k hk).pc]
    exact hsteps.fetched k hk hlt
  · intro k hk
    rw [← hinstruction k (by omega) (by omega)]
    exact hsteps.running k hk
  · rcases hsteps.ends with ⟨hlt, hloop⟩ | hend
    · exact .inl ⟨hlt, by rw [← hinstruction n (Nat.le_refl n) hlt]; exact hloop⟩
    · exact .inr hend
  · have hline : ∀ k, k ≤ n → k < 1000 → round_line trace' k = round_line trace k := by
      intro k hk hlt
      unfold round_line
      rw [hinstruction k hk hlt, (hagree k hk).pc]
    have hreport : steps_report n trace' = steps_report n trace := by
      unfold steps_report
      split
      · rename_i hlt
        refine congrArg (· ++ [REACHED]) (List.map_congr_left fun k hk => ?_)
        have hk' := List.mem_range.mp hk
        exact hline k (by omega) (by omega)
      · refine List.map_congr_left fun k hk => ?_
        have hk' := List.mem_range.mp hk
        exact hline k (by omega) (by omega)
    unfold test_report
    rw [hreport, mismatches_congr (hagree n (Nat.le_refl n)) Set.subset_union_left]

theorem TestCase.Closed.self_contained (h : t.Closed) : t.SelfContained := by
  obtain ⟨hfits, A, n, trace, hsteps, hreads⟩ := h
  refine ⟨hfits, fun B => ?_⟩
  obtain ⟨trace', hsteps', -⟩ := hsteps.repeated hreads B
  exact ⟨n, trace', hsteps'⟩

theorem test_report_congr {n' : Nat} {trace' : Nat → ArchState}
    (h : SingleSteps A n trace) (h' : SingleSteps A n' trace') :
    test_report t n trace = test_report t n' trace' := by
  obtain ⟨rfl, hsame⟩ := h.unique h'
  have hlines : ∀ m, m ≤ n + 1 →
      (List.range m).map (round_line trace) = (List.range m).map (round_line trace') := by
    intro m hm
    refine List.map_congr_left fun k hk => ?_
    have hk' := List.mem_range.mp hk
    unfold round_line
    rw [hsame k (by omega)]
  unfold test_report steps_report
  rw [hlines (n + 1) (Nat.le_refl _), hlines n (by omega), hsame n (Nat.le_refl n)]

/-- Every run of a closed test case prints the same. -/
theorem TestCase.Closed.same_report (h : t.Closed) {n' : Nat} {trace' : Nat → ArchState}
    (hA : SingleSteps (prepared A t) n trace) (hB : SingleSteps (prepared B t) n' trace') :
    test_report t n trace = test_report t n' trace' := by
  obtain ⟨-, C, m, tr, hsteps, hreads⟩ := h
  obtain ⟨trA, hA', hreportA⟩ := hsteps.repeated hreads A
  obtain ⟨trB, hB', hreportB⟩ := hsteps.repeated hreads B
  rw [test_report_congr hA hA', hreportA, ← hreportB, test_report_congr hB' hB]

end closed

/-! ### The screen of a series -/

/-- What a test case prints behind its title: all its runs agree on it. -/
def Predicts (report : List (List Byte)) (files : TestFiles) : Prop :=
  ∀ t, files.parse = .ok t → ∀ A n trace, SingleSteps (prepared A t) n trace →
    report = test_report t n trace

theorem TestCase.Closed.predicted {files : TestFiles} {t : TestCase} (hparse : files.parse = .ok t)
    (h : t.Closed) : ∃ report, Predicts report files := by
  obtain ⟨A, n, trace, hsteps, -⟩ := h.2
  refine ⟨test_report t n trace, fun t' hparse' B n' trace' hsteps' => ?_⟩
  obtain rfl : t = t' := Except.ok.inj (hparse.symm.trans hparse')
  exact h.same_report hsteps hsteps'

def titled (report : TestFiles → List (List Byte)) (c : List Byte × TestFiles) : List (List Byte) :=
  case_title c.1 :: report c.2

theorem SeriesRun.stdout {report : TestFiles → List (List Byte)} {w w' : Bench}
    {cases : List (List Byte × TestFiles)} {r : Except Failure Unit} (h : SeriesRun w cases r w')
    (hcases : ∀ c ∈ cases, (∃ t, c.2.parse = .ok t) ∧ Predicts (report c.2) c.2) :
    w'.stdout = w.stdout ++ cases.flatMap (titled report) := by
  induction h with
  | done w => rw [List.flatMap_nil, List.append_nil]
  | executed hparse _ hsteps _ ih =>
    obtain ⟨⟨-, hpredicts⟩, hrest⟩ := List.forall_mem_cons.mp hcases
    rw [ih hrest, List.flatMap_cons, titled, hpredicts _ hparse _ _ _ hsteps]
    simp [at_rest]
  | malformed hparse =>
    obtain ⟨⟨⟨t, ht⟩, -⟩, -⟩ := List.forall_mem_cons.mp hcases
    rw [hparse] at ht
    cases ht

/-- The test case that does nothing reads only its own instruction. -/
theorem idle_case_closed : idle_case.Closed := by
  refine ⟨⟨by decide, by decide, by decide⟩, boot_state CoreAndMemory.nops, 0, _,
    idle_case_steps _, ?_⟩
  rintro k hk - b (⟨b, hfetch, rfl⟩ | ⟨i, hi, hb⟩)
  · exact .inl (.inr ⟨b, .inl (.inr hfetch), rfl⟩)
  · have hloop := (idle_case_steps (boot_state CoreAndMemory.nops)).ends
    have hjal : i = .jal 0#5 0#32 := by
      rcases hloop with ⟨-, hloop⟩ | hloop
      · have hexecutes : Rv32i.decode (instruction _) = some i := hi
        rw [hloop] at hexecutes
        exact (Option.some.inj hexecutes).symm
      · cases hloop
    rw [hjal] at hb
    exact hb.elim

def idle_tree : Directory (Directory TestFiles) :=
  [(Text.ascii "j_type", some [(Text.ascii "idle", some idle_files)])]

end Host

end RiscvWorker
