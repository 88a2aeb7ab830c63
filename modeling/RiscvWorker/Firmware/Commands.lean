import RiscvWorker.Firmware.Main

/-! # The command language

  What the firmware is for: a line asks for nothing, is rejected, or is a
  request. A request stands for some accesses to the board and a reply. Here
  a line is taken as a whole; how `main` gets through it byte by byte is
  another matter.
-/

namespace RiscvWorker

namespace Firmware

open Text (Byte ascii numeral zero_pad tokens)

/-! ### Requests -/

/-- The address of a word. -/
abbrev WordAddr : Type := { a : Word // a &&& 0x3#32 = 0#32 }

inductive Request where
  | protocol_version
  | start
  | stop
  | step
  | get_pc
  | set_pc (pc : Word)
  | get_reg (reg : BitVec 5)
  | set_reg (reg : BitVec 5) (value : Word)
  | read_word (addr : Word)
  | write_word (addr value : Word)
  | fault_reg (reg : BitVec 5) (mode : FaultMode) (mask : Word)
  | fault_mem (addr : WordAddr) (mode : FaultMode) (mask : Word)
  deriving DecidableEq, Repr

variable {H : Type}

section meaning
variable (b : Board H)

/-- The address of a control register, a register, or a register fault. -/
def Board.control (reg : Word) : Word := b.XPAR_RISCV_MOD_NAME_BASEADDR + CONTROL_REG_ADDR reg

def Board.regfile (reg : BitVec 5) : Word :=
  b.XPAR_RISCV_MOD_NAME_BASEADDR + REGFILE_ADDR (reg.setWidth 32)

def Board.fault (mode : FaultMode) (reg : BitVec 5) : Word :=
  b.XPAR_RISCV_MOD_NAME_BASEADDR + FAULT_REQUEST mode.value (reg.setWidth 32)

/-- The accesses of a request, on the hardware as it is. -/
def Request.accesses (h : H) : Request → List Event
  | .protocol_version => []
  | .start => [.out32 (b.control CTRL_REG_START) 1#32]
  | .stop => [.out32 (b.control CTRL_REG_STOP) 1#32]
  | .step => [.out32 (b.control CTRL_REG_STEP) 1#32]
  | .get_pc => [.in32 (b.control CTRL_REG_PC) (b.in32 (b.control CTRL_REG_PC) h).1]
  | .set_pc pc => [.out32 (b.control CTRL_REG_PC) pc]
  | .get_reg reg => [.in32 (b.regfile reg) (b.in32 (b.regfile reg) h).1]
  | .set_reg reg value => [.out32 (b.regfile reg) value]
  | .read_word addr => [.in32 addr (b.in32 addr h).1]
  | .write_word addr value => [.out32 addr value, .dcache_flush addr 4#32]
  | .fault_reg reg mode mask => [.out32 (b.fault mode reg) mask]
  | .fault_mem addr mode mask =>
    [.in32 addr (b.in32 addr h).1,
      .out32 addr (apply_fault_mode (b.in32 addr h).1 mode.value mask),
      .dcache_flush addr 4#32]

/-- What a request returns: the value that it reads, or the version. -/
def Request.value (h : H) : Request → Option Word
  | .protocol_version => some 1#32
  | .get_pc => some (b.in32 (b.control CTRL_REG_PC) h).1
  | .get_reg reg => some (b.in32 (b.regfile reg) h).1
  | .read_word addr => some (b.in32 addr h).1
  | _ => none

/-- The hardware after an event. -/
def Event.effect (e : Event) (h : H) : H :=
  match e with
  | .in32 addr _ => (b.in32 addr h).2
  | .out32 addr data => b.out32 addr data h
  | .dcache_flush addr len => b.dcache_flush addr len h
  | .print _ => h

/-- The reply without and with a value. -/
def ok_reply : Option Word → List Byte
  | none => ascii "OK\n"
  | some value => ascii "OK 0x" ++ zero_pad 8 (numeral 16 value.toNat) ++ ascii "\n"

/-- The accesses of a request, then its reply. -/
def Request.perform (r : Request) (w : World H) : World H :=
  { hardware := (r.accesses b w.hardware).foldl (fun h e => e.effect b h) w.hardware
    trace := w.trace ++ r.accesses b w.hardware ++ [.print (ok_reply (r.value b w.hardware))] }

end meaning

/-! ### Lines -/

/-- What a line asks for. -/
inductive Outcome where
  | silent
  | reject (reason : List Byte)
  | execute (r : Request)
  deriving DecidableEq, Repr

def Outcome.perform (b : Board H) (o : Outcome) (w : World H) : World H :=
  match o with
  | .silent => w
  | .reject reason => xil_printf reason w
  | .execute r => r.perform b w

/-- The number that a token stands for. -/
def number (token : List Byte) : Option Word :=
  if (parse_u32 token 0#32).1 then some (parse_u32 token 0#32).2 else none

theorem number_of_parsed {token : List Byte} {v : Word} (h : parse_u32 token 0#32 = (true, v)) :
    number token = some v := by
  unfold number
  rw [h, if_pos rfl]

theorem number_of_failed {token : List Byte} {v : Word} (h : parse_u32 token 0#32 = (false, v)) :
    number token = none := by
  unfold number
  rw [h, if_neg (by simp)]

/-- The `n`-th argument as a number. -/
def arg (args : List (List Byte)) (n : Nat) : Option Word := args[n]?.bind number

/-- A register index from 0 to 31. -/
def register? (n : Word) : Option (BitVec 5) :=
  if n.toNat ≤ 31 then some (n.setWidth 5) else none

/-- A fault mode from 0 to 3. -/
def fault_mode? (n : Word) : Option FaultMode :=
  if n.toNat ≤ MODE_MAX then some (cm_fault_mode_t n) else none

def word_addr? (a : Word) : Option WordAddr :=
  if h : a &&& 0x3#32 = 0#32 then some ⟨a, h⟩ else none

/-- A request, or the reason why its arguments are rejected. -/
def Outcome.of (reason : List Byte) : Option Request → Outcome
  | none => .reject reason
  | some r => .execute r

section forms
variable (args : List (List Byte))

def SET_PC? : Option Request := do
  let pc ← arg args 0
  some (.set_pc pc)

def GET_REG? : Option Request := do
  let reg ← (arg args 0).bind register?
  some (.get_reg reg)

def SET_REG? : Option Request := do
  let reg ← (arg args 0).bind register?
  let value ← arg args 1
  some (.set_reg reg value)

def READ_WORD? : Option Request := do
  let addr ← arg args 0
  some (.read_word addr)

def WRITE_WORD? : Option Request := do
  let addr ← arg args 0
  let value ← arg args 1
  some (.write_word addr value)

def FAULT_REG? : Option Request := do
  let reg ← (arg args 0).bind register?
  let mode ← (arg args 1).bind fault_mode?
  let mask ← arg args 2
  some (.fault_reg reg mode mask)

def FAULT_MEM? : Option Request := do
  let addr ← (arg args 0).bind word_addr?
  let mode ← (arg args 1).bind fault_mode?
  let mask ← arg args 2
  some (.fault_mem addr mode mask)

end forms

/-- The command forms. Arguments after the last one that a command takes are
    not looked at. -/
def command (cmd : List Byte) (args : List (List Byte)) : Outcome :=
  if cmd = ascii "PROTOCOL_VERSION" then .execute .protocol_version
  else if cmd = ascii "START" then .execute .start
  else if cmd = ascii "STOP" then .execute .stop
  else if cmd = ascii "STEP" then .execute .step
  else if cmd = ascii "GET_PC" then .execute .get_pc
  else if cmd = ascii "SET_PC" then .of BAD_PC (SET_PC? args)
  else if cmd = ascii "GET_REG" then .of BAD_REG (GET_REG? args)
  else if cmd = ascii "SET_REG" then .of BAD_REG (SET_REG? args)
  else if cmd = ascii "READ_WORD" then .of BAD_ADDR (READ_WORD? args)
  else if cmd = ascii "WRITE_WORD" then .of BAD_WRITE (WRITE_WORD? args)
  else if cmd = ascii "FAULT_REG" then .of BAD_FAULT_REG (FAULT_REG? args)
  else if cmd = ascii "FAULT_MEM" then .of BAD_FAULT_MEM (FAULT_MEM? args)
  else .reject UNKNOWN_CMD

section forms
variable (args : List (List Byte))

theorem command_eq_SET_PC : command (ascii "SET_PC") args = .of BAD_PC (SET_PC? args) := rfl

theorem command_eq_GET_REG : command (ascii "GET_REG") args = .of BAD_REG (GET_REG? args) := rfl

theorem command_eq_SET_REG : command (ascii "SET_REG") args = .of BAD_REG (SET_REG? args) := rfl

theorem command_eq_READ_WORD :
    command (ascii "READ_WORD") args = .of BAD_ADDR (READ_WORD? args) := rfl

theorem command_eq_WRITE_WORD :
    command (ascii "WRITE_WORD") args = .of BAD_WRITE (WRITE_WORD? args) := rfl

theorem command_eq_FAULT_REG :
    command (ascii "FAULT_REG") args = .of BAD_FAULT_REG (FAULT_REG? args) := rfl

theorem command_eq_FAULT_MEM :
    command (ascii "FAULT_MEM") args = .of BAD_FAULT_MEM (FAULT_MEM? args) := rfl

end forms

/-- A line without its terminator. -/
def outcome (line : List Byte) : Outcome :=
  if UART_LINE_MAX ≤ line.length then .reject LINE_TOO_LONG
  else match tokens is_delim line with
    | [] => .silent
    | cmd :: args => command cmd args

/-! ### Replies -/

/-- The error replies of `main`. -/
def errors : List (List Byte) :=
  [BAD_PC, BAD_REG, BAD_ADDR, BAD_WRITE, BAD_FAULT_REG, BAD_FAULT_MEM, UNKNOWN_CMD,
    LINE_TOO_LONG]

/-- One line with its newline, and nothing after it. -/
def OneLine (text : List Byte) : Prop :=
  text.getLast? = some 10#8 ∧ 10#8 ∉ text.dropLast

instance (text : List Byte) : Decidable (OneLine text) := inferInstanceAs (Decidable (_ ∧ _))

theorem OneLine.eq_append {text : List Byte} (h : OneLine text) :
    ∃ body, text = body ++ [10#8] ∧ 10#8 ∉ body := by
  obtain ⟨hlast, hbody⟩ := h
  have hne : text ≠ [] := by
    rintro rfl
    simp at hlast
  rw [List.getLast?_eq_getLast_of_ne_nil hne, Option.some_inj] at hlast
  refine ⟨text.dropLast, ?_, hbody⟩
  rw [← hlast, List.dropLast_append_getLast hne]

theorem errors_one_line : ∀ text ∈ errors, ascii "ERR " <+: text ∧ OneLine text := by decide

theorem not_err_of_ok {reply : List Byte} (hok : ascii "OK" <+: reply) :
    ¬ ascii "ERR" <+: reply := by
  intro herr
  have hpre := List.prefix_of_prefix_length_le hok herr (by decide)
  exact absurd hpre (by decide)

theorem oneLine_append {body : List Byte} (hbody : 10#8 ∉ body) : OneLine (body ++ ascii "\n") := by
  have hnl : ascii "\n" = [10#8] := rfl
  rw [hnl]
  exact ⟨List.getLast?_concat, by rwa [List.dropLast_concat]⟩

/-- The digits of `%08X` -/
theorem hex_word_digits (value : Word) :
    ∀ c ∈ zero_pad 8 (numeral 16 value.toNat), Text.digit_value c < 16 :=
  Text.digit_value_mem_zero_pad (by decide)
    fun _ hc => Text.numeral_digit (by decide) (by decide) _ hc

theorem ok_reply_one_line (value : Option Word) :
    ascii "OK" <+: ok_reply value ∧ OneLine (ok_reply value) := by
  cases value with
  | none => decide
  | some value =>
    refine ⟨?_, oneLine_append ?_⟩
    · have hok : ascii "OK" <+: ascii "OK 0x" := by decide
      exact hok.trans (List.prefix_append_of_prefix (List.prefix_append _ _))
    · intro hc
      rcases List.mem_append.mp hc with hc | hc
      · exact absurd hc (by decide)
      · exact absurd (hex_word_digits value _ hc) (by decide)

/-- A request or one of the errors. -/
def Outcome.Answers : Outcome → Prop
  | .silent => False
  | .reject reason => reason ∈ errors
  | .execute _ => True

theorem Outcome.of_answers {reason : List Byte} (hreason : reason ∈ errors)
    (r : Option Request) : (Outcome.of reason r).Answers := by
  cases r with
  | none => exact hreason
  | some r => trivial

theorem command_answers (cmd : List Byte) (args : List (List Byte)) :
    (command cmd args).Answers := by
  unfold command
  -- the commands without arguments, those with arguments, the rest
  iterate 5 refine iteInduction (motive := Outcome.Answers) (fun _ => trivial) fun _ => ?_
  iterate 7
    refine iteInduction (motive := Outcome.Answers)
      (fun _ => Outcome.of_answers (by decide) _) fun _ => ?_
  unfold Outcome.Answers
  decide

/-! ### What a line does -/

def Event.IsAccess : Event → Prop
  | .print _ => False
  | _ => True

theorem Request.accesses_isAccess (b : Board H) (h : H) (r : Request) :
    ∀ e ∈ r.accesses b h, e.IsAccess := by
  cases r <;> simp [Request.accesses, Event.IsAccess]

/-- What a line may do, by its length and content. -/
structure LineBehaviour (b : Board H) (line : List Byte) (w w' : World H) : Prop where
  blank : line.length ≤ 159 → (∀ c ∈ line, c = 32#8 ∨ c = 9#8) → w' = w
  too_long : 159 < line.length →
    w' = { w with trace := w.trace ++ [.print (ascii "ERR LINE_TOO_LONG\n")] }
  answered : line.length ≤ 159 → ¬ (∀ c ∈ line, c = 32#8 ∨ c = 9#8) →
    ∃ accesses reply, w'.trace = w.trace ++ accesses ++ [.print reply] ∧
      (∀ e ∈ accesses, e.IsAccess) ∧ OneLine reply ∧
      (ascii "ERR" <+: reply ∧ accesses = [] ∧ w'.hardware = w.hardware ∨
       ascii "OK" <+: reply ∧ ∃ r, outcome line = .execute r ∧
        accesses = r.accesses b w.hardware ∧ reply = ok_reply (r.value b w.hardware) ∧
        w'.hardware = accesses.foldl (fun h e => e.effect b h) w.hardware)

theorem is_delim_iff (c : Byte) : is_delim c = true ↔ c = 32#8 ∨ c = 9#8 := by
  simp [is_delim]

/-- A line with a word in it is answered. -/
theorem outcome_answers {line : List Byte} (h : tokens is_delim line ≠ []) :
    (outcome line).Answers := by
  unfold outcome
  by_cases hlong : UART_LINE_MAX ≤ line.length
  · rw [if_pos hlong]
    unfold Outcome.Answers
    decide
  · rw [if_neg hlong]
    obtain ⟨cmd, args, htok⟩ := List.exists_cons_of_ne_nil h
    rw [htok]
    exact command_answers cmd args

theorem line_behaviour (b : Board H) (line : List Byte) (w : World H) :
    LineBehaviour b line w ((outcome line).perform b w) := by
  constructor
  · intro hlen hblank
    have hnone : tokens is_delim line = [] :=
      (Text.tokens_eq_nil_iff line).mpr fun c hc => (is_delim_iff c).mpr (hblank c hc)
    unfold outcome
    rw [if_neg (by unfold UART_LINE_MAX; omega), hnone]
    rfl
  · intro hlen
    unfold outcome
    rw [if_pos (by unfold UART_LINE_MAX; omega)]
    rfl
  · intro hlen hblank
    have hans : (outcome line).Answers := by
      apply outcome_answers
      rw [Ne, Text.tokens_eq_nil_iff]
      exact fun hall => hblank fun c hc => (is_delim_iff c).mp (hall c hc)
    rcases hr : outcome line with - | reason | r
    · rw [hr] at hans
      exact hans.elim
    · rw [hr] at hans
      obtain ⟨herr, hone⟩ := errors_one_line reason hans
      refine ⟨[], reason, by simp [Outcome.perform, xil_printf], by simp, hone, .inl ⟨?_, rfl, rfl⟩⟩
      have hword : ascii "ERR" <+: ascii "ERR " := by decide
      exact hword.trans herr
    · obtain ⟨hok, hone⟩ := ok_reply_one_line (r.value b w.hardware)
      exact ⟨_, _, rfl, r.accesses_isAccess b _, hone, .inr ⟨hok, r, rfl, rfl, rfl, rfl⟩⟩

end Firmware

end RiscvWorker
