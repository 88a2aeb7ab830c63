import RiscvWorker.Control.Answers
import RiscvWorker.Firmware.Lines

/-! # What the control module accepts

  The firmware checks a command line, the control module checks each access,
  and the firmware does not look at the answers. The two agree on all lines
  for the core but those that write register 0: these are OK for the firmware
  and an error for the control module.
-/

namespace RiscvWorker

namespace Firmware

open Text (Byte ascii tokens)
open SocControl (WriteTransaction ReadTransaction writer reader answered_read)

/-! ### Answers to an access -/

/-- Every transaction that carries the access, in any run of the control
    module, is answered OKAY. -/
def AnsweredOkay : Event → Prop
  | .out32 addr data =>
    ∀ e : Lts.Execution SocControl SocControl.Input, SocControl.system.valid_exec e →
    ∀ t ta tw tb, WriteTransaction e t ta tw tb → (e.labels ta).s_axi.awaddr = addr →
      (e.labels tw).s_axi.wdata = data → (e.labels tw).s_axi.wstrb = 0b1111#4 →
      (e.states tb).s_axi.bresp = AXI_RESP_OKAY
  | .in32 addr _ =>
    ∀ e : Lts.Execution SocControl SocControl.Input, SocControl.system.valid_exec e →
    ∀ ta tr, ReadTransaction e ta tr → (e.labels ta).s_axi.araddr = addr →
      (e.states tr).s_axi.rresp = AXI_RESP_OKAY
  | .dcache_flush _ _ => True
  | .print _ => True

/-- A write after reset, without delays. -/
def write_run (addr data : Word) : Lts.Execution SocControl SocControl.Input :=
  .of_inputs SocControl.next SocControl.reset fun _ => writer addr data 0b1111#4

theorem write_run_valid (addr data : Word) : SocControl.system.valid_exec (write_run addr data) :=
  ⟨rfl, fun _ => rfl⟩

theorem write_run_transaction (addr data : Word) :
    WriteTransaction (write_run addr data) 0 1 2 5 :=
  .of_fast_master (fun _ => rfl) rfl (fun _ _ _ => rfl)

theorem answeredOkay_out32 (addr data : Word) :
    AnsweredOkay (.out32 addr data) ↔ okay_write addr 0b1111#4 := by
  constructor
  · intro h
    have hokay := h (write_run addr data) (write_run_valid addr data) 0 1 2 5
      (write_run_transaction addr data) rfl rfl rfl
    exact ((write_run_transaction addr data).bresp (write_run_valid addr data).2).1.mp hokay
  · intro h e hv t ta tw tb htrans haddr _ hstrb
    rw [(htrans.bresp hv.2).1, haddr, hstrb]
    exact h

theorem answeredOkay_in32 {addr : Word} (value : Word) (h : answered_read addr) :
    AnsweredOkay (.in32 addr value) := by
  intro e hv ta tr htrans haddr
  rw [(htrans.answered hv.2).1, haddr]
  exact h

/-! ### Where the accesses go -/

/-- A register number as the driver's `uint8_t`. -/
theorem register_number (reg : BitVec 5) :
    (reg.setWidth 8).setWidth 32 = reg.setWidth 32 ∧ (reg.setWidth 8).setWidth 5 = reg := by
  revert reg
  decide

section board
variable {H : Type} {b : Board H}
  (hbase : b.XPAR_RISCV_MOD_NAME_BASEADDR.extractLsb' 0 16 = 0#16)
include hbase

theorem okay_write_control {reg : Word} (hsel : selector (CONTROL_REG_ADDR reg) = SUB_SEL_CTRL)
    (hreg : is_control_write (window_offset (CONTROL_REG_ADDR reg))) :
    okay_write (b.control reg) 0b1111#4 := by
  refine ⟨rfl, .inl ⟨?_, ?_⟩⟩
  · unfold Board.control
    rwa [selector_base hbase]
  · unfold Board.control
    rwa [window_offset_base hbase]

theorem answered_read_pc : answered_read (b.control CTRL_REG_PC) := by
  obtain ⟨hsel, hoff⟩ := CONTROL_REG_ADDR_pc hbase
  exact .inl ⟨hsel, by unfold Board.control; rw [hoff]; simp [SocControl.is_control_answered]⟩

/-- Where a register of the core is. -/
theorem regfile_window (reg : BitVec 5) :
    selector (b.regfile reg) = SUB_SEL_REGFILE ∧
    window_offset (b.regfile reg) = register_offset reg := by
  have hwindow := REGFILE_ADDR_window hbase (reg.setWidth 8)
  rwa [(register_number reg).1, (register_number reg).2] at hwindow

theorem fault_window (mode : FaultMode) (reg : BitVec 5) :
    selector (b.fault mode reg) = SUB_SEL_FAULT ∧
    window_offset (b.fault mode reg) = fault_offset (mode.value.setWidth 2) reg := by
  have hwindow := FAULT_REQUEST_window hbase mode (reg.setWidth 8)
  rwa [(register_number reg).1, (register_number reg).2] at hwindow

theorem okay_write_regfile (reg : BitVec 5) :
    okay_write (b.regfile reg) 0b1111#4 ↔ reg ≠ 0#5 := by
  obtain ⟨hsel, hoff⟩ := regfile_window hbase reg
  constructor
  · intro h
    exact okay_write_register h hsel hoff
  · intro hreg
    exact ⟨rfl, .inr (.inl ⟨hsel, reg, hreg, hoff⟩)⟩

theorem okay_write_fault_reg (mode : FaultMode) (reg : BitVec 5) :
    okay_write (b.fault mode reg) 0b1111#4 ↔ reg ≠ 0#5 := by
  obtain ⟨hsel, hoff⟩ := fault_window hbase mode reg
  constructor
  · intro h
    exact okay_write_fault h hsel hoff
  · intro hreg
    exact ⟨rfl, .inr (.inr ⟨hsel, _, reg, hreg, hoff⟩)⟩

end board

/-! ### Requests for the core -/

/-- The requests that the control module serves. -/
def Request.ForCore : Request → Prop
  | .protocol_version | .read_word _ | .write_word _ _ | .fault_mem _ _ _ => False
  | _ => True

def Request.WritesX0 : Request → Prop
  | .set_reg reg _ | .fault_reg reg _ _ => reg = 0#5
  | _ => False

theorem answered_write (addr data : Word) :
    (∀ a ∈ [Event.out32 addr data], AnsweredOkay a) ↔ okay_write addr 0b1111#4 := by
  rw [List.forall_mem_singleton, answeredOkay_out32]

theorem answered_iff {H : Type} {b : Board H}
    (hbase : b.XPAR_RISCV_MOD_NAME_BASEADDR.extractLsb' 0 16 = 0#16) (h : H) {r : Request}
    (hr : r.ForCore) : (∀ a ∈ r.accesses b h, AnsweredOkay a) ↔ ¬ r.WritesX0 := by
  cases r with
  | protocol_version => exact hr.elim
  | read_word addr => exact hr.elim
  | write_word addr value => exact hr.elim
  | fault_mem addr mode mask => exact hr.elim
  | start =>
    have hokay : okay_write (b.control CTRL_REG_START) 0b1111#4 :=
      okay_write_control hbase (by decide) (.inl (by decide))
    exact iff_of_true ((answered_write _ _).mpr hokay) not_false
  | stop =>
    have hokay : okay_write (b.control CTRL_REG_STOP) 0b1111#4 :=
      okay_write_control hbase (by decide) (.inr (.inl (by decide)))
    exact iff_of_true ((answered_write _ _).mpr hokay) not_false
  | step =>
    have hokay : okay_write (b.control CTRL_REG_STEP) 0b1111#4 :=
      okay_write_control hbase (by decide) (.inr (.inr (.inl (by decide))))
    exact iff_of_true ((answered_write _ _).mpr hokay) not_false
  | set_pc pc =>
    have hokay : okay_write (b.control CTRL_REG_PC) 0b1111#4 :=
      okay_write_control hbase (by decide) (.inr (.inr (.inr (by decide))))
    exact iff_of_true ((answered_write _ _).mpr hokay) not_false
  | get_pc =>
    have hokay := answeredOkay_in32 (b.in32 (b.control CTRL_REG_PC) h).1 (answered_read_pc hbase)
    exact iff_of_true (List.forall_mem_singleton.mpr hokay) not_false
  | get_reg reg =>
    obtain ⟨hsel, hoff⟩ := regfile_window hbase reg
    have hokay := answeredOkay_in32 (b.in32 (b.regfile reg) h).1 (.inr ⟨hsel, reg, hoff⟩)
    exact iff_of_true (List.forall_mem_singleton.mpr hokay) not_false
  | set_reg reg value => exact (answered_write _ _).trans (okay_write_regfile hbase reg)
  | fault_reg reg mode mask =>
    exact (answered_write _ _).trans (okay_write_fault_reg hbase mode reg)

/-! ### Lines for the core -/

/-- START, STOP, STEP, GET_PC, SET_PC, GET_REG, SET_REG, FAULT_REG -/
def core_commands : List (List Byte) :=
  [ascii "START", ascii "STOP", ascii "STEP", ascii "GET_PC", ascii "SET_PC", ascii "GET_REG",
    ascii "SET_REG", ascii "FAULT_REG"]

def CoreCommand (line : List Byte) : Prop :=
  ∃ cmd args, tokens is_delim line = cmd :: args ∧ cmd ∈ core_commands

/-- A `SET_REG` or `FAULT_REG` whose first argument is zero. -/
def NamesRegisterZero (line : List Byte) : Prop :=
  ∃ cmd args, tokens is_delim line = cmd :: args ∧
    (cmd = ascii "SET_REG" ∨ cmd = ascii "FAULT_REG") ∧ arg args 0 = some 0#32

theorem Outcome.of_eq_execute {reason : List Byte} {o : Option Request} {r : Request} :
    Outcome.of reason o = .execute r ↔ o = some r := by
  cases o <;> simp [Outcome.of]

theorem register?_eq_zero {n : Word} {reg : BitVec 5} (h : register? n = some reg) :
    reg = 0#5 ↔ n = 0#32 := by
  unfold register? at h
  split_ifs at h with hn
  obtain rfl : n.setWidth 5 = reg := by simpa using h
  constructor
  · intro h0
    have htoNat := congrArg BitVec.toNat h0
    rw [BitVec.toNat_setWidth, BitVec.toNat_ofNat] at htoNat
    apply BitVec.eq_of_toNat_eq
    rw [BitVec.toNat_ofNat]
    omega
  · rintro rfl
    rfl

/-- The first argument of a command that writes a register. -/
theorem register_arg_zero {a : Option Word} {reg : BitVec 5} (h : a.bind register? = some reg) :
    reg = 0#5 ↔ a = some 0#32 := by
  obtain ⟨n, rfl, hn⟩ := Option.bind_eq_some_iff.mp h
  rw [register?_eq_zero hn, Option.some_inj]

theorem command_forCore {cmd : List Byte} {args : List (List Byte)} {r : Request}
    (hcmd : cmd ∈ core_commands) (h : command cmd args = .execute r) :
    r.ForCore ∧
    (r.WritesX0 ↔
      (cmd = ascii "SET_REG" ∨ cmd = ascii "FAULT_REG") ∧ arg args 0 = some 0#32) := by
  have harmless : ¬ (cmd = ascii "SET_REG" ∨ cmd = ascii "FAULT_REG") → ¬ r.WritesX0 →
      (r.WritesX0 ↔
        (cmd = ascii "SET_REG" ∨ cmd = ascii "FAULT_REG") ∧ arg args 0 = some 0#32) := by
    intro hno hr
    exact ⟨fun hw => absurd hw hr, fun hw => absurd hw.1 hno⟩
  simp only [core_commands, List.mem_cons, List.not_mem_nil, or_false] at hcmd
  rcases hcmd with rfl | rfl | rfl | rfl | rfl | rfl | rfl | rfl
  · obtain rfl : Request.start = r := Outcome.execute.inj h
    exact ⟨trivial, harmless (by decide) not_false⟩
  · obtain rfl : Request.stop = r := Outcome.execute.inj h
    exact ⟨trivial, harmless (by decide) not_false⟩
  · obtain rfl : Request.step = r := Outcome.execute.inj h
    exact ⟨trivial, harmless (by decide) not_false⟩
  · obtain rfl : Request.get_pc = r := Outcome.execute.inj h
    exact ⟨trivial, harmless (by decide) not_false⟩
  · have hargs := Outcome.of_eq_execute.mp ((command_eq_SET_PC args).symm.trans h)
    obtain ⟨pc, -, hr⟩ := Option.bind_eq_some_iff.mp hargs
    obtain rfl : Request.set_pc pc = r := Option.some.inj hr
    exact ⟨trivial, harmless (by decide) not_false⟩
  · have hargs := Outcome.of_eq_execute.mp ((command_eq_GET_REG args).symm.trans h)
    obtain ⟨reg, -, hr⟩ := Option.bind_eq_some_iff.mp hargs
    obtain rfl : Request.get_reg reg = r := Option.some.inj hr
    exact ⟨trivial, harmless (by decide) not_false⟩
  · have hargs := Outcome.of_eq_execute.mp ((command_eq_SET_REG args).symm.trans h)
    obtain ⟨reg, hreg, hargs⟩ := Option.bind_eq_some_iff.mp hargs
    obtain ⟨value, -, hr⟩ := Option.bind_eq_some_iff.mp hargs
    obtain rfl : Request.set_reg reg value = r := Option.some.inj hr
    exact ⟨trivial, by simpa [Request.WritesX0] using register_arg_zero hreg⟩
  · have hargs := Outcome.of_eq_execute.mp ((command_eq_FAULT_REG args).symm.trans h)
    obtain ⟨reg, hreg, hargs⟩ := Option.bind_eq_some_iff.mp hargs
    obtain ⟨mode, -, hargs⟩ := Option.bind_eq_some_iff.mp hargs
    obtain ⟨mask, -, hr⟩ := Option.bind_eq_some_iff.mp hargs
    obtain rfl : Request.fault_reg reg mode mask = r := Option.some.inj hr
    exact ⟨trivial, by simpa [Request.WritesX0] using register_arg_zero hreg⟩

theorem outcome_forCore {line : List Byte} {r : Request} (hcore : CoreCommand line)
    (h : outcome line = .execute r) : r.ForCore ∧ (r.WritesX0 ↔ NamesRegisterZero line) := by
  obtain ⟨cmd, args, htok, hcmd⟩ := hcore
  unfold outcome at h
  split_ifs at h with hlong
  rw [htok] at h
  obtain ⟨hr, hzero⟩ := command_forCore hcmd h
  refine ⟨hr, hzero.trans ?_⟩
  constructor
  · intro hz
    exact ⟨cmd, args, htok, hz⟩
  · rintro ⟨cmd', args', htok', hz⟩
    rw [htok] at htok'
    obtain ⟨rfl, rfl⟩ := List.cons.inj htok'
    exact hz

/-- A line for the core that the firmware answers with OK is accepted by the
    control module, whatever the timing of its access, if and only if it does
    not write register 0. What follows a NUL is not looked at. -/
theorem ok_line_accepted_iff {H : Type} {b : Board H}
    (hbase : b.XPAR_RISCV_MOD_NAME_BASEADDR.extractLsb' 0 16 = 0#16) {line : List Byte}
    (hline : ∀ d ∈ line, is_eol d = false) (hcore : CoreCommand (c_text line)) (s : State H)
    (fuel : Nat) :
    ∃ s' accesses reply, main_loop b (fuel + 2) (line ++ ascii "\n") s = some s' ∧
      s'.world.trace = s.world.trace ++ accesses ++ [.print reply] ∧
      (∀ a ∈ accesses, a.IsAccess) ∧
      (ascii "OK" <+: reply →
        ((∀ a ∈ accesses, AnsweredOkay a) ↔ ¬ NamesRegisterZero (c_text line))) := by
  obtain ⟨s2, hmain, hworld⟩ := main_loop_one_line b hline s fuel
  by_cases hlen : line.length ≤ 159
  · rw [c_outcome_of_short hlen] at hworld
    have hbehaviour := line_behaviour b (c_text line) s.world
    rw [← hworld] at hbehaviour
    have hshort : (c_text line).length ≤ 159 := Nat.le_trans (c_text_length_le line) hlen
    have hblank : ¬ ∀ c ∈ c_text line, c = 32#8 ∨ c = 9#8 := by
      intro hall
      obtain ⟨cmd, args, htok, -⟩ := hcore
      rw [(Text.tokens_eq_nil_iff _).mpr fun c hc => (is_delim_iff c).mpr (hall c hc)] at htok
      simp at htok
    obtain ⟨accesses, reply, htrace, haccess, -, hreply⟩ := hbehaviour.answered hshort hblank
    refine ⟨s2, accesses, reply, hmain, htrace, haccess, ?_⟩
    intro hok
    rcases hreply with ⟨herr, -⟩ | ⟨-, r, hr, rfl, -⟩
    · exact absurd herr (not_err_of_ok hok)
    · obtain ⟨hforCore, hzero⟩ := outcome_forCore hcore hr
      rw [answered_iff hbase _ hforCore, hzero]
  · rw [c_outcome_of_long (by omega)] at hworld
    refine ⟨s2, [], LINE_TOO_LONG, hmain, ?_, by simp, ?_⟩
    · rw [hworld]
      simp [Outcome.perform, xil_printf]
    · intro hok
      exact absurd hok (by decide)

/-- A register write and one to register 0. -/
theorem ok_line_accepted_iff_set_reg :
    (∃ s' accesses reply,
      main_loop sample_board 2 (ascii "SET_REG 7 0xFF" ++ ascii "\n") power_on = some s' ∧
        s'.world.trace = power_on.world.trace ++ accesses ++ [.print reply] ∧
        (∀ a ∈ accesses, a.IsAccess) ∧
        (ascii "OK" <+: reply → ∀ a ∈ accesses, AnsweredOkay a)) ∧
    NamesRegisterZero (ascii "FAULT_REG 0 1 3") := by
  have hcore : CoreCommand (c_text (ascii "SET_REG 7 0xFF")) :=
    ⟨ascii "SET_REG", [ascii "7", ascii "0xFF"], by decide, by decide⟩
  have hseven : ¬ NamesRegisterZero (c_text (ascii "SET_REG 7 0xFF")) := by
    intro ⟨cmd, args, htok, _, hzero⟩
    have hargs : [ascii "7", ascii "0xFF"] = args := (List.cons.inj htok).2
    rw [← hargs] at hzero
    exact absurd hzero (by decide)
  constructor
  · obtain ⟨s', accesses, reply, hmain, htrace, haccess, hok⟩ :=
      ok_line_accepted_iff (b := sample_board) (by decide) (by decide) hcore power_on 0
    exact ⟨s', accesses, reply, hmain, htrace, haccess, fun h => (hok h).mpr hseven⟩
  · exact ⟨ascii "FAULT_REG", [ascii "0", ascii "1", ascii "3"], by decide, by decide, by decide⟩

/-- `SET_REG 0 0x1` is answered OK by the firmware and SLVERR by the control
    module. -/
theorem set_reg_zero_refused :
    ∃ s', main_loop sample_board 2 (ascii "SET_REG 0 0x1" ++ ascii "\n") power_on = some s' ∧
      s'.world.trace = [.out32 0x60002000#32 1#32, .print (ascii "OK\n")] ∧
      ((write_run 0x60002000#32 1#32).states 5).s_axi.bresp = AXI_RESP_SLVERR ∧
      ¬ AnsweredOkay (.out32 0x60002000#32 1#32) := by
  have hline : ∀ d ∈ ascii "SET_REG 0 0x1", is_eol d = false := by decide
  obtain ⟨s', hmain, hworld⟩ := main_loop_one_line sample_board hline power_on 0
  have hrefused : ((write_run 0x60002000#32 1#32).states 5).s_axi.bresp = AXI_RESP_SLVERR := by
    decide
  refine ⟨s', hmain, by rw [hworld]; decide, hrefused, ?_⟩
  intro h
  have hokay := h (write_run 0x60002000#32 1#32) (write_run_valid _ _) 0 1 2 5
    (write_run_transaction _ _) rfl rfl rfl
  rw [hrefused] at hokay
  exact absurd hokay (by decide)

end Firmware

end RiscvWorker
