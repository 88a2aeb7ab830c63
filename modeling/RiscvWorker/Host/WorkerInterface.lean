import RiscvWorker.Library.PyText
import RiscvWorker.Firmware.Lines

/-! # worker_interface.py

  The client on the PC. Its serial port has the firmware at the other end;
  nothing is delayed here, so that everything the firmware prints on a line
  can be read as soon as the line is written. Integers are Python's, of any
  size and sign; `n & 0xFFFFFFFF` is the remainder modulo 2^32.
-/

namespace RiscvWorker

namespace Host

open Text (Byte ascii)
open PyText (strip split decode str_int format_X int_base0)
open Firmware (Board State Event main_loop)

/-- The exceptions. -/
inductive Raised where
  | ValueError
  | RuntimeError
  | TimeoutError
  deriving DecidableEq, Repr

/-! ### The serial port -/

variable {H : Type}

/-- The firmware, which waits for a line, and the bytes not yet read. -/
structure Serial (H : Type) where
  firmware : State H
  in_buffer : List Byte

/-- The bytes that have been printed. -/
def printed (events : List Event) : List Byte :=
  events.flatMap fun
    | .print text => text
    | _ => []

/-- `ser.write`: the firmware runs on what is written. -/
def Serial.write (b : Board H) (data : List Byte) (ser : Serial H) : Option (Serial H) := do
  let firmware ← main_loop b (data.length + 1) data ser.firmware
  let news := firmware.world.trace.drop ser.firmware.world.trace.length
  some { firmware, in_buffer := ser.in_buffer ++ printed news }

/-- `ser.readline`: up to a newline, or all there is. -/
def Serial.readline (ser : Serial H) : List Byte × Serial H :=
  let line := ser.in_buffer.takeWhile (· ≠ 10#8)
  let raw := line ++ (ser.in_buffer.drop line.length).take 1
  (raw, { ser with in_buffer := ser.in_buffer.drop raw.length })

/-! ### WorkerInterface -/

/-- A method: it returns a value or raises, and leaves the port behind. There
    is no result where the firmware has none. -/
def Action (H α : Type) : Type := Serial H → Option (Except Raised α × Serial H)

/-- Checks come before anything is sent. -/
def checked {α : Type} (check : Except Raised Unit) (act : Action H α) : Action H α := fun ser =>
  match check with
  | .error e => some (.error e, ser)
  | .ok () => act ser

/-- What `send` makes of `raw`; nothing when it reads on. -/
def examine (raw : List Byte) : Option (Except Raised (List Byte)) :=
  if raw = [] then some (.error .TimeoutError)
  else
    let line := strip (decode raw)
    if line = [] then none
    else if ascii "OK" <+: line then some (.ok line)
    else if ascii "ERR" <+: line then some (.error .RuntimeError)
    else some (.error .RuntimeError)

/-- The loop of `send`. Every round but the last takes something off the
    buffer. -/
def send_loop : Nat → Action H (List Byte)
  | 0, _ => none
  | fuel + 1, ser =>
    let (raw, ser) := ser.readline
    match examine raw with
    | some response => some (response, ser)
    | none => send_loop fuel ser

section methods
variable (b : Board H)

def send (command : List Byte) : Action H (List Byte) := fun ser => do
  let ser ← ser.write b (command ++ ascii "\n")
  send_loop (ser.in_buffer.length + 1) ser

/-- An acknowledgement; the method returns `None`. -/
def parse_ack (response : List Byte) : Except Raised (Option Word) :=
  if response ≠ ascii "OK" then .error .RuntimeError else .ok none

/-- `_parse_ok_u32` -/
def parse_ok_u32 (response : List Byte) : Except Raised (Option Word) :=
  match split response with
  | [ok, value] =>
    if ok ≠ ascii "OK" then .error .RuntimeError
    else match int_base0 value with
      | none => .error .RuntimeError
      | some n => .ok (some (BitVec.ofInt 32 n))
  | _ => .error .RuntimeError

/-- A command whose response is parsed. -/
def send_and_parse (parse : List Byte → Except Raised (Option Word)) (command : List Byte) :
    Action H (Option Word) := fun ser => do
  let (response, ser) ← send b command ser
  some (response.bind parse, ser)

/-- `_send_ack` -/
def send_ack : List Byte → Action H (Option Word) := send_and_parse b parse_ack

/-- `_send_u32` -/
def send_u32 : List Byte → Action H (Option Word) := send_and_parse b parse_ok_u32

def REG_MAX : Int := 31
def MODE_MAX : Int := 3

/-- `_check_reg_idx` -/
def check_reg_idx (reg_idx : Int) : Except Raised Unit :=
  if reg_idx < 0 ∨ reg_idx > REG_MAX then .error .ValueError else .ok ()

/-- `_check_mode` -/
def check_mode (mode : Int) : Except Raised Unit :=
  if mode < 0 ∨ mode > MODE_MAX then .error .ValueError else .ok ()

/-- `_check_word_addr` -/
def check_word_addr (addr : Int) : Except Raised Unit :=
  if addr % 4 ≠ 0 then .error .ValueError else .ok ()

def PROTOCOL_VERSION_CMD : List Byte := ascii "PROTOCOL_VERSION"
def GET_PC_CMD : List Byte := ascii "GET_PC"
def GET_REG_CMD : List Byte := ascii "GET_REG"
def READ_WORD_CMD : List Byte := ascii "READ_WORD"

def protocol_version : Action H (Option Word) := send_u32 b PROTOCOL_VERSION_CMD

def start : Action H (Option Word) := send_ack b (ascii "START")

def stop : Action H (Option Word) := send_ack b (ascii "STOP")

def step : Action H (Option Word) := send_ack b (ascii "STEP")

def get_pc : Action H (Option Word) := send_u32 b GET_PC_CMD

def set_pc (pc_addr : Int) : Action H (Option Word) :=
  send_ack b (ascii "SET_PC 0x" ++ format_X 8 pc_addr)

def get_reg (reg_idx : Int) : Action H (Option Word) :=
  checked (check_reg_idx reg_idx) <|
    send_u32 b (GET_REG_CMD ++ ascii " " ++ str_int reg_idx)

def set_reg (reg_idx value : Int) : Action H (Option Word) :=
  checked (check_reg_idx reg_idx) <|
    send_ack b (ascii "SET_REG " ++ str_int reg_idx ++ ascii " 0x" ++ format_X 8 (value % 2 ^ 32))

def read_word (addr : Int) : Action H (Option Word) :=
  checked (check_word_addr addr) <|
    send_u32 b (READ_WORD_CMD ++ ascii " 0x" ++ format_X 8 addr)

def write_word (addr value : Int) : Action H (Option Word) :=
  checked (check_word_addr addr) <|
    send_ack b (ascii "WRITE_WORD 0x" ++ format_X 8 addr ++ ascii " 0x" ++
      format_X 8 (value % 2 ^ 32))

def fault_reg (reg_idx mode mask : Int) : Action H (Option Word) :=
  checked (check_reg_idx reg_idx) <| checked (check_mode mode) <|
    send_ack b (ascii "FAULT_REG " ++ str_int reg_idx ++ ascii " " ++ str_int mode ++
      ascii " 0x" ++ format_X 8 (mask % 2 ^ 32))

def fault_mem (addr mode mask : Int) : Action H (Option Word) :=
  checked (check_word_addr addr) <| checked (check_mode mode) <|
    send_ack b (ascii "FAULT_MEM 0x" ++ format_X 8 addr ++ ascii " " ++ str_int mode ++
      ascii " 0x" ++ format_X 8 (mask % 2 ^ 32))

end methods

end Host

end RiscvWorker
