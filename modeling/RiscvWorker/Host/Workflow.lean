import RiscvWorker.Library.Interaction
import RiscvWorker.Host.CommandLines

/-! # execute_tests.py, demo_workflow.py

  The programs that drive the client: they call its methods, print lines, and
  end or raise. A test case is given by the contents of its four files.
  `0x40000000` is the address of the block RAM; test programs are loaded
  4 KiB behind it.
-/

namespace RiscvWorker

namespace Host

open Text (Byte ascii numeral zero_pad)
open PyText (strip str_int file_lines int_base16)
open Firmware (Board)
open Interaction (Program Handler)

/-! ### Programs over the client -/

/-- The exceptions: those of the methods, and those of the programs. -/
inductive Failure where
  | raised (e : Raised)
  | ValueError
  | TypeError
  | AssertionError (message : List Byte)
  | RuntimeError (message : List Byte)
  deriving DecidableEq, Repr

inductive Operation where
  | call (m : Method)
  | print (text : List Byte)

abbrev Script (α : Type) : Type := Program Operation (Option Word) Failure α

/-- A client, and the lines on the screen. -/
structure Session (H : Type) where
  serial : Serial H
  stdout : List (List Byte)

/-- The operations on the real client. -/
def Operation.exec {H : Type} (b : Board H) : Handler Operation (Option Word) Failure (Session H)
  | .call m, s => do
    let (result, serial) ← m.run b s.serial
    some (result.mapError .raised, { s with serial })
  | .print text, s => some (.ok none, { s with stdout := s.stdout ++ [text] })

namespace Script

/-- A method whose result is not used. -/
def call (m : Method) : Script Unit := do
  let _ ← Program.perform (.call m)

/-- A method that returns an integer. -/
def value (m : Method) : Script Int := do
  match ← Program.perform (.call m) with
  | some v => return v.toNat
  -- `None` is none
  | none => .raise .TypeError

def print (text : List Byte) : Script Unit := do
  let _ ← Program.perform (.print text)

end Script

open Script (call value print)
open Interaction.Program (each each_until)

/-! ### WorkerInterface.upload_words -/

def upload_failure (addr expected actual : Int) : List Byte :=
  ascii "Upload verify failed at " ++ hex_arg addr ++ ascii ": expected " ++ hex_arg expected ++
    ascii ", got " ++ hex_arg actual

def verify_word (base_addr : Int) (entry : Int × Nat) : Script Unit := do
  let (expected, idx) := entry
  let addr := base_addr + idx * 4
  let actual ← value (.read_word addr)
  if actual ≠ expected then .raise (.RuntimeError (upload_failure addr expected actual))

def upload_words (base_addr : Int) (words : List Int) (verify : Bool) : Script Unit := do
  each (fun (word, idx) => call (.write_word (base_addr + idx * 4) word)) words.zipIdx
  if verify then each (verify_word base_addr) words.zipIdx

/-! ### execute_tests.py -/

/-- `(expected_value + base_addr) & 0xFFFFFFFF` -/
def relocated (base_addr expected_value : Int) : Int := (expected_value + base_addr) % 2 ^ 32

def mismatch (base_addr actual_value expected_value : Int) (title : List Byte) : List Byte :=
  title ++ ascii " mismatch: expected " ++ hex_arg expected_value ++ ascii " or " ++
    hex_arg (relocated base_addr expected_value) ++ ascii ", got " ++ hex_arg actual_value

def expect_word_equal (base_addr actual_value expected_value : Int) (title : List Byte) :
    Script Unit :=
  if actual_value ∉ [expected_value, relocated base_addr expected_value] then
    print (mismatch base_addr actual_value expected_value title)
  else return

/-- The contents of the files of a test case. -/
structure TestFiles where
  program : List Byte
  memory : List Byte
  expected_registers : List Byte
  expected_memory : List Byte

/-- What they hold. -/
structure TestCase where
  program : List Int
  initial_memory : List Int
  expected_registers : List Int
  expected_memory : List Int
  deriving DecidableEq

/-- `[int(line.strip(), 16) for line in f if line.strip()]` -/
def hex_words (text : List Byte) : Except Failure (List Int) :=
  match (((file_lines text).map strip).filter (· ≠ [])).mapM int_base16 with
  | some words => .ok words
  | none => .error .ValueError

def MISSING_REGISTERS : List Byte := ascii "Expected exactly 31 register values"

/-- The files are read one after the other. -/
def TestFiles.parse (files : TestFiles) : Except Failure TestCase := do
  let program ← hex_words files.program
  let initial_memory ← hex_words files.memory
  let expected_registers ← hex_words files.expected_registers
  if expected_registers.length ≠ 31 then .error (.AssertionError MISSING_REGISTERS)
  let expected_memory ← hex_words files.expected_memory
  return { program, initial_memory, expected_registers, expected_memory }

def Script.of {α : Type} : Except Failure α → Script α
  | .ok a => return a
  | .error e => .raise e

def base_addr : Int := 0x40000000
def data_addr : Int := base_addr
def boot_addr : Int := base_addr + 0x1000

def JAL_x0_0 : Int := 0x0000006F

def step_line (i : Nat) (pc instr : Int) : List Byte :=
  ascii "Step " ++ zero_pad 3 (numeral 10 i) ++ ascii ": PC=" ++ hex_arg pc ++ ascii ", instr=" ++
    hex_arg instr

def REACHED : List Byte := ascii "Reached infinite loop, stopping execution."

/-- The body of the loop of single steps. -/
def step_round (i : Nat) : Script Bool := do
  let pc ← value .get_pc
  let instr ← value (.read_word pc)
  print (step_line i pc instr)
  if instr = JAL_x0_0 then
    print REACHED
    return true
  else
    call .step
    return false

def register_title (i : Int) : List Byte := ascii "Register x" ++ str_int i

def memory_title (addr : Int) : List Byte := ascii "Memory at " ++ hex_arg addr

def check_register (expected_registers : List Int) (i : Nat) : Script Unit := do
  let reg_val ← value (.get_reg i)
  -- there are 31
  expect_word_equal base_addr reg_val (expected_registers.getD (i - 1) 0) (register_title i)

def check_memory (entry : Int × Nat) : Script Unit := do
  let (expected_word, i) := entry
  let mem_val ← value (.read_word (data_addr + i * 4))
  expect_word_equal base_addr mem_val expected_word (memory_title (data_addr + i * 4))

def execute_test_case (files : TestFiles) : Script Unit := do
  call .stop
  let { program, initial_memory, expected_registers, expected_memory } ← .of files.parse
  print (ascii "Setting all registers to zero before the test")
  each (fun i : Nat => call (.set_reg i 0)) (List.range' 1 31)
  print (ascii "resetting memory")
  each (fun (_, i) => call (.write_word (data_addr + i * 4) 0)) expected_memory.zipIdx
  print (ascii "Setting initial memory values before the test")
  upload_words boot_addr program false
  upload_words data_addr initial_memory false
  print (ascii "Stopping core and setting PC to boot address")
  call .stop
  call (.set_pc boot_addr)
  each_until step_round (List.range 1000)
  each (check_register expected_registers) (List.range' 1 31)
  each check_memory expected_memory.zipIdx

/-- The entries of a directory; a file has no entries of its own. -/
abbrev Directory (α : Type) : Type := List (List Byte × Option α)

/-- `sorted(dir.iterdir())` without the files. -/
def subdirectories {α : Type} (dir : Directory α) : List (List Byte × α) :=
  (dir.mergeSort fun a b => decide (a.1 ≤ b.1)).filterMap fun (name, entries) =>
    entries.map fun e => (name, e)

def case_title (name : List Byte) : List Byte :=
  ascii "\n=== Executing test case: " ++ name ++ ascii " ==="

def execute_named (test_case_sub_dir : List Byte × TestFiles) : Script Unit := do
  print (case_title test_case_sub_dir.1)
  execute_test_case test_case_sub_dir.2

def execute_all_test_cases (test_cases_dir : Directory (Directory TestFiles)) : Script Unit :=
  each (fun (_, test_case_dir) => each execute_named (subdirectories test_case_dir))
    (subdirectories test_cases_dir)

/-! ### demo_workflow.py -/

def DEMO_PROGRAM : List Int :=
  [0x0AB00293, 0x0CD00313, 0x0EF00393, 0x40001537, 0x00550023, 0x006500A3, 0x005502A3,
    0x00750423, 0x00752623, 0x0000006F]

def unexpected (label : List Byte) (actual expected : Int) : List Byte :=
  label ++ ascii ": expected " ++ hex_arg expected ++ ascii ", got " ++ hex_arg actual

/-- `_expect_eq` -/
def expect_eq (label : List Byte) (actual expected : Int) : Script Unit :=
  if actual ≠ expected then .raise (.RuntimeError (unexpected label actual expected)) else return

/-- A byte of a word: `(word >> (8 * k)) & 0xFF` -/
def byte_of (word : Int) (k : Nat) : Int := (word >>> (8 * k)) % 2 ^ 8

namespace Demo

def boot_addr : Int := 0x40000000
def data_addr : Int := 0x40001000
def probe_addr : Int := data_addr + 0x40

/-- A step, and the PC and a register after it. -/
def step_and_expect (pc_label reg_label : List Byte) (pc reg expected : Int) : Script Unit := do
  call .step
  expect_eq pc_label (← value .get_pc) pc
  expect_eq reg_label (← value (.get_reg reg)) expected

def run_demo_program_test : Script Unit := do
  upload_words boot_addr DEMO_PROGRAM true
  call .stop
  call (.set_pc boot_addr)
  expect_eq (ascii "PC after reset") (← value .get_pc) boot_addr
  step_and_expect (ascii "PC after step 1") (ascii "x5") (boot_addr + 0x04) 5 0x000000AB
  step_and_expect (ascii "PC after step 2") (ascii "x6") (boot_addr + 0x08) 6 0x000000CD
  step_and_expect (ascii "PC after step 3") (ascii "x7") (boot_addr + 0x0C) 7 0x000000EF
  step_and_expect (ascii "PC after step 4") (ascii "x10") (boot_addr + 0x10) 10 data_addr
  call .step
  expect_eq (ascii "Mem[DATA+0]") (byte_of (← value (.read_word (data_addr + 0x00))) 0) 0xAB
  call .step
  expect_eq (ascii "Mem[DATA+1]") (byte_of (← value (.read_word (data_addr + 0x00))) 1) 0xCD
  call .step
  expect_eq (ascii "Mem[DATA+5]") (byte_of (← value (.read_word (data_addr + 0x04))) 1) 0xAB
  call .step
  expect_eq (ascii "Mem[DATA+8]") (byte_of (← value (.read_word (data_addr + 0x08))) 0) 0xEF
  call .step
  expect_eq (ascii "Mem[DATA+12]") (← value (.read_word (data_addr + 0x0C))) 0x000000EF

def run_fault_injection_test : Script Unit := do
  upload_words boot_addr DEMO_PROGRAM false
  call .stop
  call (.set_pc boot_addr)
  call .step
  expect_eq (ascii "x5 before fault") (← value (.get_reg 5)) 0x000000AB
  call (.fault_reg 5 1 0x0000000F)
  expect_eq (ascii "x5 after FAULT_REG XOR") (← value (.get_reg 5)) 0x000000A4
  call (.write_word probe_addr 0x12345678)
  call (.fault_mem probe_addr 2 0x0000FF00)
  expect_eq (ascii "mem after FAULT_MEM OR") (← value (.read_word probe_addr)) 0x1234FF78

end Demo

end Host

end RiscvWorker
