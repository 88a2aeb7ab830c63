import RiscvWorker.Library.CString
import RiscvWorker.Firmware.ControlModule

/-! # main.c

  The firmware: it reads command lines from the UART, byte by byte into a
  buffer of 160 characters, takes them apart with `strtok` and `strtoul`, and
  drives the board. A function has no result when it would read or write
  outside the line buffer.

  The bus and the cache are parameters of the board, the UART is a list of
  the bytes that come in and a trace of what is printed. `init_platform` does
  nothing to either and is left out.
-/

namespace RiscvWorker

namespace Firmware

open Text (Byte ascii numeral zero_pad)
open CString (strtok strtoul c_string)

/-! ### The board -/

/-- What the firmware does that can be seen from outside. -/
inductive Event where
  | in32 (addr value : Word)
  | out32 (addr data : Word)
  | dcache_flush (addr len : Word)
  | print (text : List Byte)
  deriving DecidableEq, Repr

/-- The hardware behind the bus, with the addresses of `xparameters.h`. -/
structure Board (H : Type) where
  in32 : Word → H → Word × H
  out32 : Word → Word → H → H
  dcache_flush : Word → Word → H → H
  XPAR_RISCV_MOD_NAME_BASEADDR : Word
  XPAR_XBRAM_0_BASEADDR : Word

/-- The hardware, and everything that has happened so far. -/
structure World (H : Type) where
  hardware : H
  trace : List Event

variable {H : Type}

/-- `xil_printf` -/
def xil_printf (text : List Byte) (w : World H) : World H :=
  { w with trace := w.trace ++ [.print text] }

section driver
variable (b : Board H)

def Xil_In32 (addr : Word) (w : World H) : Word × World H :=
  let (value, hardware) := b.in32 addr w.hardware
  (value, { hardware, trace := w.trace ++ [.in32 addr value] })

def Xil_Out32 (addr data : Word) (w : World H) : World H :=
  { hardware := b.out32 addr data w.hardware, trace := w.trace ++ [.out32 addr data] }

def Xil_DCacheFlushRange (addr len : Word) (w : World H) : World H :=
  { hardware := b.dcache_flush addr len w.hardware,
    trace := w.trace ++ [.dcache_flush addr len] }

/-! ### control_module.c on the board -/

def cm_regfile_write (register_num : BitVec 8) (value : Word) : World H → World H :=
  Xil_Out32 b (b.XPAR_RISCV_MOD_NAME_BASEADDR + REGFILE_ADDR (register_num.setWidth 32)) value

def cm_regfile_read (register_num : BitVec 8) : World H → Word × World H :=
  Xil_In32 b (b.XPAR_RISCV_MOD_NAME_BASEADDR + REGFILE_ADDR (register_num.setWidth 32))

def cm_pc_set (value : Word) : World H → World H :=
  Xil_Out32 b (b.XPAR_RISCV_MOD_NAME_BASEADDR + CONTROL_REG_ADDR CTRL_REG_PC) value

def cm_pc_read : World H → Word × World H :=
  Xil_In32 b (b.XPAR_RISCV_MOD_NAME_BASEADDR + CONTROL_REG_ADDR CTRL_REG_PC)

def cm_single_step_core : World H → World H :=
  Xil_Out32 b (b.XPAR_RISCV_MOD_NAME_BASEADDR + CONTROL_REG_ADDR CTRL_REG_STEP) 0x01#32

def cm_core_start : World H → World H :=
  Xil_Out32 b (b.XPAR_RISCV_MOD_NAME_BASEADDR + CONTROL_REG_ADDR CTRL_REG_START) 0x01#32

def cm_core_stop : World H → World H :=
  Xil_Out32 b (b.XPAR_RISCV_MOD_NAME_BASEADDR + CONTROL_REG_ADDR CTRL_REG_STOP) 0x01#32

def cm_regfile_fault_inject (register_num : BitVec 8) (mask : Word) (mode : FaultMode) :
    World H → World H :=
  Xil_Out32 b
    (b.XPAR_RISCV_MOD_NAME_BASEADDR + FAULT_REQUEST mode.value (register_num.setWidth 32)) mask

/-- The cast `(cm_fault_mode_t)mode` of a mode from 0 to 3. -/
def cm_fault_mode_t (mode : Word) : FaultMode :=
  if mode = 0#32 then .CM_FAULT_MODE_OVERWRITE
  else if mode = 1#32 then .CM_FAULT_MODE_XOR_MASK
  else if mode = 2#32 then .CM_FAULT_MODE_OR_MASK
  else .CM_FAULT_MODE_ANDN_MASK

end driver

/-! ### The line buffer -/

def UART_LINE_MAX : Nat := 160

/-- `char line[UART_LINE_MAX]` -/
structure LineBuffer where
  bytes : List Byte
  length_eq : bytes.length = UART_LINE_MAX

/-- `buf[i] = c`, inside the buffer. -/
def LineBuffer.store (buf : LineBuffer) (i : Nat) (c : Byte) : Option LineBuffer :=
  if i < UART_LINE_MAX then
    some ⟨buf.bytes.set i c, by rw [List.length_set, buf.length_eq]⟩
  else none

/-- The memory of `main`: the line buffer and the pointer `strtok` keeps. -/
structure State (H : Type) where
  line : LineBuffer
  strtok_save : Option Nat
  world : World H

def is_eol (c : Byte) : Bool := c = 13#8 || c = 10#8

/-- `uart_readline` has read a line, complete or truncated, and `rest` is still
    to come; or it waits for more input. -/
inductive Readline where
  | line (complete : Bool) (buf : LineBuffer) (rest : List Byte)
  | waiting (buf : LineBuffer)

/-- The loop of `uart_readline`, over the bytes that `inbyte` returns. -/
def uart_readline_loop (max_len : Nat) :
    List Byte → LineBuffer → (i : Nat) → (is_truncated : Bool) → Option Readline
  | [], buf, _, _ => some (.waiting buf)
  | c :: input, buf, i, is_truncated =>
    if is_eol c then do
      let buf ← buf.store i 0#8
      some (.line (!is_truncated) buf input)
    else if i < max_len - 1 then do
      let buf ← buf.store i c
      uart_readline_loop max_len input buf (i + 1) is_truncated
    else uart_readline_loop max_len input buf i true

def uart_readline (input : List Byte) (buf : LineBuffer) : Option Readline :=
  uart_readline_loop UART_LINE_MAX input buf 0 false

/-! ### Tokens and numbers -/

/-- The delimiters `" \t"` -/
def is_delim (c : Byte) : Bool := c = 32#8 || c = 9#8

/-- The NUL that `strtok` may write. -/
def LineBuffer.cut (buf : LineBuffer) : Option Nat → Option LineBuffer
  | none => some buf
  | some q => buf.store q 0#8

/-- `strtok` on the line buffer, from `p` on. -/
def strtok_line (p : Option Nat) (s : State H) : Option (Option Nat × State H) := do
  let r ← strtok is_delim s.line.bytes p
  let line ← s.line.cut r.cut
  some (r.token, { s with line := line, strtok_save := r.save })

def UINT_MAX : Nat := 2 ^ 32 - 1

/-- `parse_u32`: its result, and `*out` after it. -/
def parse_u32 (token : List Byte) (out : Word) : Bool × Word :=
  let parsed := strtoul 32 token
  if token = [] ∨ parsed.consumed = 0 ∨ token.drop parsed.consumed ≠ [] then (false, out)
  else if parsed.erange = true ∨ parsed.value > UINT_MAX then (false, out)
  else (true, BitVec.ofNat 32 parsed.value)

def next_token (s : State H) : Option (Option Nat × State H) := strtok_line s.strtok_save s

def parse_next_u32 (out : Word) (s : State H) : Option ((Bool × Word) × State H) := do
  let (token, s) ← next_token s
  match token with
  | none => some ((false, out), s)
  | some p => do
    let token ← c_string s.line.bytes p
    some (parse_u32 token out, s)

/-- The right side of `!failed || !parse_next_u32(&out)`, which runs when the
    left side has parsed. -/
def and_parse_next_u32 (parsed : Bool) (out : Word) (s : State H) :
    Option ((Bool × Word) × State H) :=
  if parsed then parse_next_u32 out s else some ((false, out), s)

/-! ### Replies -/

def reply_ok : World H → World H := xil_printf (ascii "OK\n")

/-- `xil_printf("OK 0x%08X\n", value)` -/
def reply_ok_u32 (value : Word) : World H → World H :=
  xil_printf (ascii "OK 0x" ++ zero_pad 8 (numeral 16 value.toNat) ++ ascii "\n")

def BAD_PC : List Byte := ascii "ERR BAD_PC\n"
def BAD_REG : List Byte := ascii "ERR BAD_REG\n"
def BAD_ADDR : List Byte := ascii "ERR BAD_ADDR\n"
def BAD_WRITE : List Byte := ascii "ERR BAD_WRITE\n"
def BAD_FAULT_REG : List Byte := ascii "ERR BAD_FAULT_REG\n"
def BAD_FAULT_MEM : List Byte := ascii "ERR BAD_FAULT_MEM\n"
def UNKNOWN_CMD : List Byte := ascii "ERR UNKNOWN_CMD\n"
def LINE_TOO_LONG : List Byte := ascii "ERR LINE_TOO_LONG\n"

/-! ### The commands -/

def MODE_MAX : Nat := 3

/-- The state after something that happens on the board. -/
def State.on_board (s : State H) (f : World H → World H) : State H := { s with world := f s.world }

section commands
variable (b : Board H)

def command_GET_PC (s : State H) : State H :=
  s.on_board fun w =>
    let (value, w) := cm_pc_read b w
    reply_ok_u32 value w

def command_SET_PC (s : State H) : Option (State H) := do
  let ((parsed, pc_val), s) ← parse_next_u32 0#32 s
  if !parsed then some (s.on_board (xil_printf BAD_PC))
  else some (s.on_board fun w => reply_ok (cm_pc_set b pc_val w))

def command_GET_REG (s : State H) : Option (State H) := do
  let ((parsed, reg_idx), s) ← parse_next_u32 0#32 s
  if !parsed || reg_idx.toNat > 31 then some (s.on_board (xil_printf BAD_REG))
  else some (s.on_board fun w =>
    let (value, w) := cm_regfile_read b (reg_idx.setWidth 8) w
    reply_ok_u32 value w)

def command_SET_REG (s : State H) : Option (State H) := do
  let ((parsed, reg_idx), s) ← parse_next_u32 0#32 s
  let ((parsed, value), s) ← and_parse_next_u32 parsed 0#32 s
  if !parsed || reg_idx.toNat > 31 then some (s.on_board (xil_printf BAD_REG))
  else some (s.on_board fun w => reply_ok (cm_regfile_write b (reg_idx.setWidth 8) value w))

def command_READ_WORD (s : State H) : Option (State H) := do
  let ((parsed, addr), s) ← parse_next_u32 0#32 s
  if !parsed then some (s.on_board (xil_printf BAD_ADDR))
  else some (s.on_board fun w =>
    let (value, w) := Xil_In32 b addr w
    reply_ok_u32 value w)

def command_WRITE_WORD (s : State H) : Option (State H) := do
  let ((parsed, addr), s) ← parse_next_u32 0#32 s
  let ((parsed, value), s) ← and_parse_next_u32 parsed 0#32 s
  if !parsed then some (s.on_board (xil_printf BAD_WRITE))
  else some (s.on_board fun w =>
    reply_ok (Xil_DCacheFlushRange b addr 4#32 (Xil_Out32 b addr value w)))

def command_FAULT_REG (s : State H) : Option (State H) := do
  let ((parsed, reg_idx), s) ← parse_next_u32 0#32 s
  let ((parsed, mode), s) ← and_parse_next_u32 parsed 0#32 s
  let ((parsed, mask), s) ← and_parse_next_u32 parsed 0#32 s
  if !parsed || reg_idx.toNat > 31 || mode.toNat > MODE_MAX then
    some (s.on_board (xil_printf BAD_FAULT_REG))
  else some (s.on_board fun w =>
    reply_ok (cm_regfile_fault_inject b (reg_idx.setWidth 8) mask (cm_fault_mode_t mode) w))

def command_FAULT_MEM (s : State H) : Option (State H) := do
  let ((parsed, addr), s) ← parse_next_u32 0#32 s
  let ((parsed, mode), s) ← and_parse_next_u32 parsed 0#32 s
  let ((parsed, mask), s) ← and_parse_next_u32 parsed 0#32 s
  if !parsed || mode.toNat > MODE_MAX || (addr &&& 0x3#32) != 0#32 then
    some (s.on_board (xil_printf BAD_FAULT_MEM))
  else some (s.on_board fun w =>
    let (current, w) := Xil_In32 b addr w
    let updated := apply_fault_mode current mode mask
    reply_ok (Xil_DCacheFlushRange b addr 4#32 (Xil_Out32 b addr updated w)))

/-- The comparisons of `main` with the command names, in its order. -/
def dispatch (cmd : List Byte) (s : State H) : Option (State H) :=
  if cmd = ascii "PROTOCOL_VERSION" then some (s.on_board (reply_ok_u32 1#32))
  else if cmd = ascii "START" then some (s.on_board fun w => reply_ok (cm_core_start b w))
  else if cmd = ascii "STOP" then some (s.on_board fun w => reply_ok (cm_core_stop b w))
  else if cmd = ascii "STEP" then some (s.on_board fun w => reply_ok (cm_single_step_core b w))
  else if cmd = ascii "GET_PC" then some (command_GET_PC b s)
  else if cmd = ascii "SET_PC" then command_SET_PC b s
  else if cmd = ascii "GET_REG" then command_GET_REG b s
  else if cmd = ascii "SET_REG" then command_SET_REG b s
  else if cmd = ascii "READ_WORD" then command_READ_WORD b s
  else if cmd = ascii "WRITE_WORD" then command_WRITE_WORD b s
  else if cmd = ascii "FAULT_REG" then command_FAULT_REG b s
  else if cmd = ascii "FAULT_MEM" then command_FAULT_MEM b s
  else some (s.on_board (xil_printf UNKNOWN_CMD))

/-! ### main -/

/-- The body of the loop after `uart_readline`. -/
def process_line (complete : Bool) (s : State H) : Option (State H) :=
  if !complete then some (s.on_board (xil_printf LINE_TOO_LONG))
  else do
    let (cmd, s) ← strtok_line (some 0) s
    match cmd with
    | none => some s
    | some p => do
      let cmd ← c_string s.line.bytes p
      dispatch b cmd s

/-- The loop of `main` until it waits for input. A step of it reads one line;
    without fuel it has no result. -/
def main_loop : Nat → List Byte → State H → Option (State H)
  | 0, _, _ => none
  | fuel + 1, input, s => do
    match ← uart_readline input s.line with
    | .waiting line => some { s with line }
    | .line complete line rest => do
      let s ← process_line b complete { s with line }
      main_loop fuel rest s

/-- `main` on the bytes that come in on the UART. -/
def main (fuel : Nat) (input : List Byte) (s : State H) : Option (State H) :=
  main_loop b fuel input
    (s.on_board fun w => cm_pc_set b b.XPAR_XBRAM_0_BASEADDR (cm_core_stop b w))

end commands

end Firmware

end RiscvWorker
