import RiscvWorker.Library.MemoryImage
import RiscvWorker.Library.PyText

/-! # rv322coe.py, memory.py

  From the text that `objcopy -O verilog` makes of a program to the memory
  of the simulation: the conversion to a file of words, its reader, and the
  loop that stores the program word after word.
-/

namespace RiscvWorker

open Text (Byte ascii digit_value numeral_value)
open PyText (strip split file_lines int_base16)

namespace Rv322coe

abbrev Str : Type := List Byte

/-! ### Conversion -/

/-- The words of the byte values of a line: four values each, the last value
    first; fewer than four at the end of the line make no word. -/
def group_words : List Str → List Str
  | b0 :: b1 :: b2 :: b3 :: rest => (b3 ++ b2 ++ b1 ++ b0) :: group_words rest
  | _ => []

/-- The words of a line; an address record has none. -/
def line_words (line : Str) : List Str :=
  let line := strip line
  if line.take 1 = ascii "@" then [] else group_words (split line)

def words (tmp_hex : Str) : List Str := (file_lines tmp_hex).flatMap line_words

def coe_header : Str :=
  ascii "memory_initialization_radix=16;\nmemory_initialization_vector=\n"

/-- The text of the `.coe` file when there is a word; the last comma becomes a
    semicolon. -/
def coe_text (ws : List Str) : Str :=
  coe_header ++ ((ws.map (· ++ ascii ",\n")).flatten.dropLast.dropLast ++ ascii ";\n")

/-- The text of the `.hex` file. -/
def hex_text (ws : List Str) : Str := (ws.map (· ++ ascii "\n")).flatten

/-- A `RuntimeError` of the conversion. -/
inductive Failure where
  | no_valid_instructions
  | nearly_empty
  deriving DecidableEq, Repr

def Failure.message (file_coe : Str) : Failure → Str
  | .no_valid_instructions => ascii "No valid instructions found in .hex file"
  | .nearly_empty => ascii ".coe file is empty or nearly empty: " ++ file_coe

/-- The `.hex` file that `execute` makes of the output of `objcopy`. -/
def execute (tmp_hex : Str) : Except Failure Str :=
  let ws := words tmp_hex
  if 0 < ws.length then
    if (coe_text ws).length < 50 then .error .nearly_empty else .ok (hex_text ws)
  else .error .no_valid_instructions

/-! ### Loading -/

/-- `n.to_bytes(4, byteorder="little")`; nothing for an `OverflowError`. -/
def to_bytes (n : Int) : Option (List Byte) :=
  if 0 ≤ n ∧ n < 2 ^ 32 then
    some [BitVec.ofNat 8 n.toNat, BitVec.ofNat 8 (n.toNat / 2 ^ 8), BitVec.ofNat 8 (n.toNat / 2 ^ 16),
      BitVec.ofNat 8 (n.toNat / 2 ^ 24)]
  else none

/-- The program in a `.hex` file; blank lines are skipped. -/
def read_program_from_file (text : Str) : Option (List (List Byte)) :=
  (((file_lines text).map strip).filter (· ≠ [])).mapM fun line => (int_base16 line).bind to_bytes

/-- The memory after `ram.write(base + i * 4, instr_bytes)` for each
    instruction. -/
def load_program (base : Nat) (program : List (List Byte)) (ram : Nat → Byte) : Nat → Byte :=
  program.zipIdx.foldl (fun ram p => MemoryImage.store (base + p.2 * 4) p.1 ram) ram

/-! ### Listings -/

/-- A line of a listing. -/
inductive Row where
  | address (a : Nat)
  | bytes (values : List Byte)
  deriving DecidableEq

/-- A byte value: two hexadecimal digits. -/
def byte_value (w : Str) : Option Byte :=
  if w.length = 2 ∧ ∀ c ∈ w, digit_value c < 16 then some (BitVec.ofNat 8 (numeral_value 16 w))
  else none

/-- What a line says: `@HEX`, or byte values with white space between them. -/
def row (line : Str) : Option Row :=
  let line := strip line
  if line.take 1 = ascii "@" then
    if line.drop 1 ≠ [] ∧ ∀ c ∈ line.drop 1, digit_value c < 16 then
      some (.address (numeral_value 16 (line.drop 1)))
    else none
  else ((split line).mapM byte_value).map .bytes

/-- Byte values for consecutive addresses, in lines. -/
structure Section where
  address : Nat
  lines : List (List Byte)
  deriving DecidableEq

namespace Section
variable (s : Section)

def rows : List Row := .address s.address :: s.lines.map .bytes

def values : List Byte := s.lines.flatten

/-- The bytes of the section, with their addresses. -/
def image : List (Byte × Nat) := s.values.zipIdx s.address

end Section

/-- The text lists the sections, at increasing addresses. -/
structure Listing (text : Str) (sections : List Section) : Prop where
  rows : (file_lines text).mapM row = some (sections.flatMap Section.rows)
  increasing : sections.Pairwise fun s t => s.address + s.values.length ≤ t.address

/-- The memory image of a listing. -/
def image (sections : List Section) : List (Byte × Nat) := sections.flatMap Section.image

end Rv322coe

end RiscvWorker
