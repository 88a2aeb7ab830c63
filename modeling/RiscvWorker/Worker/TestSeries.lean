import RiscvWorker.Worker.TestCase

/-! # The series of all test cases

  `execute_all_test_cases` runs the test cases of a directory tree one after
  the other, on whatever the one before has left. The first one whose files
  cannot be read ends the series.
-/

namespace RiscvWorker

open ByteMemory
open Text (Byte)
open Interaction (Program wp wp_seq wp_mono)
open Firmware (Board Wired)
open Rv32i (ArchState)

namespace Host

/-- What a series does to a bench, by RV32I alone. -/
inductive SeriesRun :
    Bench → List (List Byte × TestFiles) → Except Failure Unit → Bench → Prop where
  | done (w : Bench) : SeriesRun w [] (.ok ()) w
  | executed {w w'' : Bench} {w' : Worker} {name : List Byte} {files : TestFiles} {t : TestCase}
      {n : Nat} {trace : Nat → ArchState} {rest : List (List Byte × TestFiles)}
      {r : Except Failure Unit} :
      files.parse = .ok t → w.worker.Later w' → SingleSteps (prepared w'.state t) n trace →
      SeriesRun (at_rest (trace n) (w.stdout ++ [case_title name] ++ test_report t n trace)) rest
        r w'' →
      SeriesRun w ((name, files) :: rest) r w''
  | malformed {w : Bench} {w' : Worker} {name : List Byte} {files : TestFiles} {e : Failure}
      {rest : List (List Byte × TestFiles)} :
      files.parse = .error e → w.worker.Later w' →
      SeriesRun w ((name, files) :: rest) (.error e)
        (at_rest w'.state (w.stdout ++ [case_title name]))

/-- A series comes to its end exactly if all files can be read. -/
theorem SeriesRun.ok_iff {w w' : Bench} {cases : List (List Byte × TestFiles)}
    {r : Except Failure Unit} (h : SeriesRun w cases r w') :
    r = .ok () ↔ ∀ c ∈ cases, ∃ t, c.2.parse = .ok t := by
  induction h with
  | done w => simp
  | executed hparse _ _ _ ih =>
    rw [ih, List.forall_mem_cons]
    exact ⟨fun h => ⟨⟨_, hparse⟩, h⟩, fun h => h.2⟩
  | malformed hparse =>
    rw [List.forall_mem_cons]
    refine iff_of_false (by simp) ?_
    rintro ⟨⟨t, ht⟩, -⟩
    rw [hparse] at ht
    cases ht

def cases_of (dirs : List (List Byte × Directory TestFiles)) : List (List Byte × TestFiles) :=
  dirs.flatMap fun (_, dir) => subdirectories dir

/-- The test cases of a tree, in the order in which they are executed. -/
def all_cases (test_cases_dir : Directory (Directory TestFiles)) :
    List (List Byte × TestFiles) := cases_of (subdirectories test_cases_dir)

theorem mem_subdirectories {α : Type} {dir : Directory α} {name : List Byte} {entries : α} :
    (name, entries) ∈ subdirectories dir ↔ (name, some entries) ∈ dir := by
  unfold subdirectories
  rw [List.mem_filterMap]
  constructor
  · rintro ⟨⟨name', entry⟩, hmem, h⟩
    obtain ⟨e, he, heq⟩ := Option.map_eq_some_iff.mp h
    obtain ⟨rfl, rfl⟩ := Prod.mk.inj heq
    rw [← show entry = some e from he]
    exact List.mem_mergeSort.mp hmem
  · exact fun h => ⟨_, List.mem_mergeSort.mpr h, rfl⟩

theorem mem_all_cases {tree : Directory (Directory TestFiles)} {c : List Byte × TestFiles} :
    c ∈ all_cases tree ↔ ∃ name dir, (name, some dir) ∈ tree ∧ (c.1, some c.2) ∈ dir := by
  unfold all_cases cases_of
  rw [List.mem_flatMap]
  constructor
  · rintro ⟨⟨name, dir⟩, hdir, hc⟩
    exact ⟨name, dir, mem_subdirectories.mp hdir, mem_subdirectories.mp hc⟩
  · rintro ⟨name, dir, hdir, hc⟩
    exact ⟨(name, dir), mem_subdirectories.mpr hdir, mem_subdirectories.mpr hc⟩

/-- It fits, and RV32I defines its run whatever was in the worker before. -/
def TestCase.SelfContained (t : TestCase) : Prop :=
  t.Fits ∧ ∀ A, ∃ n trace, SingleSteps (prepared A t) n trace

section series
variable {w : Bench}

/-- What is left of a series, and what that means for the whole. -/
def Leads (w₀ : Bench) (cases : List (List Byte × TestFiles)) (w : Bench)
    (rest : List (List Byte × TestFiles)) : Prop :=
  ∀ r w', SeriesRun w rest r w' → SeriesRun w₀ cases r w'

variable {w₀ : Bench} {cases rest : List (List Byte × TestFiles)}

theorem wp_execute_named {c : List Byte × TestFiles}
    (hc : ∀ t, c.2.parse = .ok t → t.SelfContained) (h : Leads w₀ cases w (c :: rest)) :
    wp (client_service BRAM_BASE) (execute_named c) (fun _ w' => Leads w₀ cases w' rest)
      (fun e w' => SeriesRun w₀ cases (.error e) w') w := by
  obtain ⟨name, files⟩ := c
  refine wp_seq (wp_print ?_)
  cases hparse : files.parse with
  | error e =>
    refine wp_execute_malformed hparse fun w' hlater => ?_
    exact h _ _ (.malformed hparse hlater)
  | ok t =>
    obtain ⟨hfits, hruns⟩ := hc t hparse
    refine wp_execute_test_case hparse hfits fun w' hlater => ?_
    obtain ⟨n, trace, hsteps⟩ := hruns w'.state
    exact ⟨n, trace, hsteps, fun r w'' hrest => h r w'' (.executed hparse hlater hsteps hrest)⟩

/-- The test cases of one directory. -/
theorem wp_execute_directory {dir : List (List Byte × TestFiles)}
    (hdir : ∀ c ∈ dir, ∀ t, c.2.parse = .ok t → t.SelfContained)
    (h : Leads w₀ cases w (dir ++ rest)) :
    wp (client_service BRAM_BASE) (Program.each execute_named dir)
      (fun _ w' => Leads w₀ cases w' rest) (fun e w' => SeriesRun w₀ cases (.error e) w') w := by
  have hround : wp (client_service BRAM_BASE) (Program.each execute_named dir)
      (fun _ w' => Leads w₀ cases w' (dir.drop dir.length ++ rest))
      (fun e w' => SeriesRun w₀ cases (.error e) w') w := by
    refine Interaction.wp_each (I := fun k w' => Leads w₀ cases w' (dir.drop k ++ rest)) ?_ h
    intro k hk w' hlead
    rw [List.drop_eq_getElem_cons hk] at hlead
    exact wp_execute_named (hdir _ (List.getElem_mem hk)) hlead
  simpa using hround

/-- The whole tree. -/
theorem wp_execute_all {tree : Directory (Directory TestFiles)}
    (htree : ∀ c ∈ all_cases tree, ∀ t, c.2.parse = .ok t → t.SelfContained) :
    wp (client_service BRAM_BASE) (execute_all_test_cases tree)
      (fun _ w' => SeriesRun w (all_cases tree) (.ok ()) w')
      (fun e w' => SeriesRun w (all_cases tree) (.error e) w') w := by
  refine wp_mono (Q := fun _ w' => Leads w (all_cases tree) w'
    (cases_of ((subdirectories tree).drop (subdirectories tree).length))) ?_ (fun _ _ he => he) ?_
  · intro _ w' hlead
    rw [List.drop_length] at hlead
    exact hlead _ _ (.done w')
  · refine Interaction.wp_each
      (I := fun k w' => Leads w (all_cases tree) w' (cases_of ((subdirectories tree).drop k)))
      ?_ (fun r w' h => h)
    intro k hk w' hlead
    rw [List.drop_eq_getElem_cons hk, cases_of, List.flatMap_cons] at hlead
    refine wp_execute_directory (fun c hc => htree c ?_) hlead
    exact List.mem_flatMap.mpr ⟨_, List.getElem_mem hk, hc⟩

end series

/-- The real client is one of these series. -/
theorem series_on_board {H : Type} {D : Nat} {b : Board H} {machine : H → Machine}
    (hw : Wired D b machine) (hbram : b.XPAR_XBRAM_0_BASEADDR = BRAM_BASE) {s : Session H}
    {w : Bench} (hs : s.Holds machine w) {tree : Directory (Directory TestFiles)}
    (htree : ∀ c ∈ all_cases tree, ∀ t, c.2.parse = .ok t → t.SelfContained) :
    ∃ r s' w', (execute_all_test_cases tree).run (Operation.exec b) s = some (r, s') ∧
      s'.Holds machine w' ∧ SeriesRun w (all_cases tree) r w' := by
  have hwp := wp_execute_all (w := w) htree
  rw [← hbram] at hwp
  obtain ⟨r, s', w', hrun, hholds, hr⟩ := (client_implements hw).run_of_wp hs hwp
  refine ⟨r, s', w', hrun, hholds, ?_⟩
  cases r with
  | ok a => exact hr
  | error e => exact hr

/-- A program that does nothing, and one that cannot be read. -/
def sample_tree : Directory (Directory TestFiles) :=
  [(Text.ascii "j_type", some [(Text.ascii "idle", some idle_files),
    (Text.ascii "broken", some { idle_files with expected_registers := [] }),
    (Text.ascii "README", none)])]

end Host

end RiscvWorker
