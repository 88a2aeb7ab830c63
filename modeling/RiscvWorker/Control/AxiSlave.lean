import RiscvWorker.Control.Transactions
import RiscvWorker.Hdl.RegisterFile

/-! # The control module as an AXI4-Lite slave

  The contract of the control port over whole runs. The master may request
  reads and writes in any order and at the same time, and take any time to
  accept an answer. Reads and writes share the state machine and the latched
  address, so the history of the port and of the commands to the core is a
  sequence of blocks, one for each transaction.
-/

namespace RiscvWorker

open AxiLite (Master Slave aw_handshake w_handshake b_handshake ar_handshake r_handshake)

/-- A transfer on the control port, or a command to the core. -/
inductive ControlEvent where
  | ar (addr : Word)
  | r (data : Word) (resp : BitVec 2)
  | aw (addr : Word)
  | w (data : Word) (strb : BitVec 4)
  | b (resp : BitVec 2)
  /-- The write enable of the register file is high for a cycle. -/
  | register (r : BitVec 5) (v : Word)
  | fault (r : BitVec 5) (mode : BitVec 2) (mask : Word)
  | pc (v : Word)
  deriving DecidableEq, Repr

namespace SocControl

/-! ### What happens in a cycle -/

/-- The transfers of one cycle on the control port. -/
def port_events (c : SocControl) (i : Input) : List ControlEvent :=
  (if ar_handshake i.s_axi c.s_axi then [.ar i.s_axi.araddr] else []) ++
  (if r_handshake i.s_axi c.s_axi then [.r c.s_axi.rdata c.s_axi.rresp] else []) ++
  (if aw_handshake i.s_axi c.s_axi then [.aw i.s_axi.awaddr] else []) ++
  (if w_handshake i.s_axi c.s_axi then [.w i.s_axi.wdata i.s_axi.wstrb] else []) ++
  (if b_handshake i.s_axi c.s_axi then [.b c.s_axi.bresp] else [])

/-- The enables that are high in one cycle, with their payload. -/
def commands (c : SocControl) : List ControlEvent :=
  (if c.regfile_write_enable then [.register c.regfile_addr c.regfile_write_data] else []) ++
  (if c.regfile_fault_enable then
    [.fault c.regfile_fault_addr c.regfile_fault_mode c.regfile_fault_mask] else []) ++
  (if c.pc_write_enable then [.pc c.pc_write_data] else [])

def control_events (c : SocControl) (i : Input) : List ControlEvent :=
  c.port_events i ++ c.commands

/-! ### The command of a write -/

/-- The register number in an address of the register or the fault window. -/
def register_field (addr : Word) : BitVec 5 := (window_offset addr).extractLsb' 2 5

def mode_field (addr : Word) : BitVec 2 := (window_offset addr).extractLsb' 8 2

/-- The command a write makes, given its own address, data and strobe. The
    strobe of a PC write is not looked at. -/
def command (addr data : Word) (strb : BitVec 4) : List ControlEvent :=
  if selector addr = SUB_SEL_REGFILE then
    if strb = 0b1111#4 ∧ register_field addr ≠ 0#5 ∧
        window_offset addr = register_offset (register_field addr) then
      [.register (register_field addr) data]
    else []
  else if selector addr = SUB_SEL_FAULT then
    if strb = 0b1111#4 ∧ register_field addr ≠ 0#5 ∧
        window_offset addr = fault_offset (mode_field addr) (register_field addr) then
      [.fault (register_field addr) (mode_field addr) data]
    else []
  else if selector addr = SUB_SEL_CTRL ∧ window_offset addr = CTRL_REG_PC then [.pc data]
  else []

theorem command_length_le_one (addr data : Word) (strb : BitVec 4) :
    (command addr data strb).length ≤ 1 := by
  unfold command
  repeat' split
  all_goals simp

section issue
variable {c : SocControl} {addr : Word}

theorem commands_of_not_issue (h : c.state ≠ .write_issue) : c.commands = [] := by
  obtain ⟨hr, hf, hp⟩ := enables_low h
  simp [commands, hr, hf, hp]

variable (h : c.state = .write_issue) (ha : c.latched_address = addr.extractLsb' 0 16)
include h ha

theorem issue_register :
    c.regfile_write_enable = true ↔ selector addr = SUB_SEL_REGFILE ∧
      c.latched_write_strobe = 0b1111#4 ∧ register_field addr ≠ 0#5 ∧
        window_offset addr = register_offset (register_field addr) := by
  rw [issue_regfile_write_enable h ha]
  constructor
  · intro hwrite
    obtain ⟨hs, hsel, r, hr, hoff⟩ := hwrite
    have hfield : register_field addr = r := by rw [register_field, hoff, register_offset_field]
    rw [hfield]
    exact ⟨hsel, hs, hr, hoff⟩
  · intro hwrite
    obtain ⟨hsel, hs, hr, hoff⟩ := hwrite
    exact ⟨hs, hsel, _, hr, hoff⟩

theorem issue_fault :
    c.regfile_fault_enable = true ↔ selector addr = SUB_SEL_FAULT ∧
      c.latched_write_strobe = 0b1111#4 ∧ register_field addr ≠ 0#5 ∧
        window_offset addr = fault_offset (mode_field addr) (register_field addr) := by
  rw [issue_regfile_fault_enable h ha]
  constructor
  · intro hwrite
    obtain ⟨hs, hsel, mode, r, hr, hoff⟩ := hwrite
    obtain ⟨hreg, hmode⟩ := fault_offset_field mode r
    have hfield : register_field addr = r := by rw [register_field, hoff, hreg]
    have hfield' : mode_field addr = mode := by rw [mode_field, hoff, hmode]
    rw [hfield, hfield']
    exact ⟨hsel, hs, hr, hoff⟩
  · intro hwrite
    obtain ⟨hsel, hs, hr, hoff⟩ := hwrite
    exact ⟨hs, hsel, _, _, hr, hoff⟩

/-- The payload of a register write. -/
theorem issue_register_payload (hen : c.regfile_write_enable = true) :
    c.regfile_addr = register_field addr ∧ c.regfile_write_data = c.latched_write_data := by
  have hvalid : (c.regfile_selected && c.regfile_write_valid) = true :=
    ((Bool.and_eq_true _ _).mp hen).2
  refine ⟨?_, by rw [regfile_write_data, if_pos hen]⟩
  simp only [regfile_addr, h, if_pos hvalid, regfile_sub_addr, sub_addr_eq ha]
  rfl

omit h in
/-- The payload of a fault. -/
theorem issue_fault_payload (hen : c.regfile_fault_enable = true) :
    c.regfile_fault_addr = register_field addr ∧ c.regfile_fault_mode = mode_field addr ∧
      c.regfile_fault_mask = c.latched_write_data := by
  rw [regfile_fault_addr, if_pos hen, regfile_fault_mode, if_pos hen, regfile_fault_mask,
    if_pos hen, fault_reg_addr, fault_mode, sub_addr_eq ha]
  exact ⟨rfl, rfl, rfl⟩

/-- In WRITE_ISSUE the module makes the command of its write. -/
theorem issue_commands :
    c.commands = command addr c.latched_write_data c.latched_write_strobe := by
  have hreg := issue_register h ha
  have hfault := issue_fault h ha
  have hpc := issue_pc_write_enable h ha
  unfold command
  by_cases hrf : selector addr = SUB_SEL_REGFILE
  · -- the other two windows are not selected
    have hf : c.regfile_fault_enable = false := by
      apply Bool.eq_false_of_not_eq_true
      intro hc
      rw [hrf] at hfault
      exact absurd (hfault.mp hc).1 (by decide)
    have hp : c.pc_write_enable = false := by
      apply Bool.eq_false_of_not_eq_true
      intro hc
      rw [hrf] at hpc
      exact absurd (hpc.mp hc).1 (by decide)
    rw [if_pos hrf, commands, hf, hp]
    by_cases hen : c.regfile_write_enable = true
    · obtain ⟨hr, hd⟩ := issue_register_payload h ha hen
      rw [if_pos hen, if_pos (hreg.mp hen).2, hr, hd]
      rfl
    · rw [if_neg hen, if_neg (fun hc => hen (hreg.mpr ⟨hrf, hc⟩))]
      rfl
  have hr : c.regfile_write_enable = false :=
    Bool.eq_false_of_not_eq_true (fun hc => hrf (hreg.mp hc).1)
  rw [if_neg hrf, commands, hr]
  by_cases hft : selector addr = SUB_SEL_FAULT
  · have hp : c.pc_write_enable = false := by
      apply Bool.eq_false_of_not_eq_true
      intro hc
      rw [hft] at hpc
      exact absurd (hpc.mp hc).1 (by decide)
    rw [if_pos hft, hp]
    by_cases hen : c.regfile_fault_enable = true
    · obtain ⟨hr', hm, hd⟩ := issue_fault_payload ha hen
      rw [if_pos hen, if_pos (hfault.mp hen).2, hr', hm, hd]
      rfl
    · rw [if_neg hen, if_neg (fun hc => hen (hfault.mpr ⟨hft, hc⟩))]
      rfl
  have hf : c.regfile_fault_enable = false :=
    Bool.eq_false_of_not_eq_true (fun hc => hft (hfault.mp hc).1)
  rw [if_neg hft, hf]
  by_cases hen : c.pc_write_enable = true
  · rw [if_pos hen, if_pos (hpc.mp hen), pc_write_data, if_pos hen]
    rfl
  · rw [if_neg hen, if_neg (fun hc => hen (hpc.mpr hc))]
    rfl

end issue

/-! ### The history of the port -/

/-- The events of one transaction from its address to its answer. -/
inductive Answered : List ControlEvent → Prop where
  | read (a d : Word) (resp : BitVec 2) : Answered [.ar a, .r d resp]
  | write (a d : Word) (strb : BitVec 4) (resp : BitVec 2) :
      Answered ([.aw a, .w d strb] ++ command a d strb ++ [.b resp])

/-- The events so far of the transaction in progress. -/
def InProgress (c : SocControl) (tail : List ControlEvent) : Prop :=
  match c.state with
  | .idle | .write_recv_addr => tail = []
  | .read_issue | .read_wait_done | .read_resp => ∃ a, tail = [.ar a]
  | .write_recv_data => ∃ a, tail = [.aw a] ∧ c.latched_address = a.extractLsb' 0 16
  | .write_issue => ∃ a, tail = [.aw a, .w c.latched_write_data c.latched_write_strobe] ∧
      c.latched_address = a.extractLsb' 0 16
  | .write_wait_done | .write_resp => ∃ a d strb, tail = [.aw a, .w d strb] ++ command a d strb

section history
variable {c : SocControl} {i : Input} {tail : List ControlEvent}

/-- The events of a cycle, state by state. -/
def state_events (c : SocControl) (i : Input) : List ControlEvent :=
  match c.state with
  | .idle => if i.s_axi.arvalid then [.ar i.s_axi.araddr] else []
  | .read_resp => if i.s_axi.rready then [.r c.s_axi.rdata c.s_axi.rresp] else []
  | .write_recv_addr => if i.s_axi.awvalid then [.aw i.s_axi.awaddr] else []
  | .write_recv_data => if i.s_axi.wvalid then [.w i.s_axi.wdata i.s_axi.wstrb] else []
  | .write_resp => if i.s_axi.bready then [.b c.s_axi.bresp] else []
  | .write_issue => c.commands
  | .read_issue | .read_wait_done | .write_wait_done => []

theorem control_events_eq (c : SocControl) (i : Input) :
    c.control_events i = c.state_events i := by
  have hports : c.port_events i =
      (if c.state = .write_issue then [] else c.state_events i) := by
    cases hst : c.state <;>
      simp [port_events, state_events, ar_handshake, r_handshake, aw_handshake, w_handshake,
        b_handshake, s_axi, hst]
  rw [control_events, hports]
  by_cases hst : c.state = .write_issue
  · rw [if_pos hst, state_events, hst]
    rfl
  · rw [if_neg hst, commands_of_not_issue hst, List.append_nil]

/-- The transaction in progress over one clock edge. -/
theorem InProgress.next (h : InProgress c tail) (i : Input) :
    Lts.InBlocks Answered (InProgress (c.next i)) (tail ++ c.control_events i) := by
  -- an answer leaves nothing in progress
  have hnone : (c.next i).state = .idle → InProgress (c.next i) [] := by
    intro hidle
    unfold InProgress
    rw [hidle]
  rw [control_events_eq]
  unfold InProgress at h
  cases hst : c.state with
  | idle =>
    rw [hst] at h
    obtain rfl : tail = [] := h
    apply Lts.InBlocks.of_rest
    unfold InProgress
    cases har : i.s_axi.arvalid with
    | true =>
      rw [(next_of_read_request i hst har).1]
      exact ⟨i.s_axi.araddr, by simp [state_events, hst, har]⟩
    | false =>
      cases haw : i.s_axi.awvalid with
      | true =>
        rw [(next_of_write_request i hst har haw).1]
        simp [state_events, hst, har]
      | false =>
        rw [next_of_idle i hst har haw]
        simp [state_events, hst, har]
  | read_issue =>
    rw [hst] at h
    apply Lts.InBlocks.of_rest
    have hnext : (c.next i).state = .read_wait_done := by
      show c.next_state i = _
      simp only [next_state, hst]
    unfold InProgress
    rw [hnext]
    simpa [state_events, hst] using h
  | read_wait_done =>
    rw [hst] at h
    apply Lts.InBlocks.of_rest
    unfold InProgress
    rw [(next_of_read_wait_done i hst).1]
    simpa [state_events, hst] using h
  | read_resp =>
    rw [hst] at h
    obtain ⟨a, rfl⟩ := h
    have hnext := (next_of_read_resp i hst).1
    cases hready : i.s_axi.rready with
    | true =>
      rw [hready] at hnext
      refine .of_block ?_ (hnone hnext)
      simpa [state_events, hst, hready] using Answered.read a c.s_axi.rdata c.s_axi.rresp
    | false =>
      rw [hready] at hnext
      apply Lts.InBlocks.of_rest
      unfold InProgress
      rw [hnext]
      simp [state_events, hst, hready]
  | write_recv_addr =>
    rw [hst] at h
    obtain rfl : tail = [] := h
    obtain ⟨hnext, haddr, -⟩ := next_of_recv_addr i hst
    apply Lts.InBlocks.of_rest
    unfold InProgress
    rw [hnext]
    cases haw : i.s_axi.awvalid with
    | true =>
      rw [haw] at haddr
      exact ⟨i.s_axi.awaddr, by simp [state_events, hst, haw], haddr⟩
    | false => simp [state_events, hst, haw]
  | write_recv_data =>
    rw [hst] at h
    obtain ⟨a, rfl, ha⟩ := h
    obtain ⟨hnext, hdata, hstrb, haddr, -⟩ := next_of_recv_data i hst
    apply Lts.InBlocks.of_rest
    unfold InProgress
    rw [hnext]
    cases hw : i.s_axi.wvalid with
    | true =>
      rw [hw] at hdata hstrb
      exact ⟨a, by simp [state_events, hst, hw, hdata, hstrb], haddr.trans ha⟩
    | false => exact ⟨a, by simp [state_events, hst, hw], haddr.trans ha⟩
  | write_issue =>
    rw [hst] at h
    obtain ⟨a, rfl, ha⟩ := h
    apply Lts.InBlocks.of_rest
    unfold InProgress
    rw [(next_of_write_issue i hst).1]
    refine ⟨a, c.latched_write_data, c.latched_write_strobe, ?_⟩
    rw [state_events, hst, ← issue_commands hst ha]
  | write_wait_done =>
    rw [hst] at h
    apply Lts.InBlocks.of_rest
    unfold InProgress
    rw [next_of_write_wait_done i hst]
    simpa [state_events, hst] using h
  | write_resp =>
    rw [hst] at h
    obtain ⟨a, d, strb, rfl⟩ := h
    have hnext := (next_of_write_resp i hst).1
    cases hready : i.s_axi.bready with
    | true =>
      rw [hready] at hnext
      refine .of_block ?_ (hnone hnext)
      simpa [state_events, hst, hready] using Answered.write a d strb c.s_axi.bresp
    | false =>
      rw [hready] at hnext
      apply Lts.InBlocks.of_rest
      unfold InProgress
      rw [hnext]
      exact ⟨a, d, strb, by simp [state_events, hst, hready]⟩

/-- The transaction in progress is not answered yet. -/
theorem InProgress.unanswered (h : InProgress c tail) :
    ∃ rest, rest ≠ [] ∧ Answered (tail ++ rest) := by
  unfold InProgress at h
  cases hst : c.state with
  | idle | write_recv_addr =>
    rw [hst] at h
    obtain rfl : tail = [] := h
    exact ⟨_, by simp, .read 0 0 0⟩
  | read_issue | read_wait_done | read_resp =>
    rw [hst] at h
    obtain ⟨a, rfl⟩ := h
    exact ⟨[.r 0 0], by simp, .read a 0 0⟩
  | write_recv_data =>
    rw [hst] at h
    obtain ⟨a, rfl, -⟩ := h
    exact ⟨[.w 0 0] ++ command a 0 0 ++ [.b 0], by simp, .write a 0 0 0⟩
  | write_issue =>
    rw [hst] at h
    obtain ⟨a, rfl, -⟩ := h
    refine ⟨command a c.latched_write_data c.latched_write_strobe ++ [.b 0], by simp, ?_⟩
    rw [← List.append_assoc]
    exact .write a _ _ 0
  | write_wait_done | write_resp =>
    rw [hst] at h
    obtain ⟨a, d, strb, rfl⟩ := h
    exact ⟨[.b 0], by simp, .write a d strb 0⟩

end history

/-! ### Runs -/

section run
variable {e : Lts.Execution SocControl Input}

/-- The register file behind the module: its registered port is addressed and
    read by the module, everything else is free. -/
structure Attached (e : Lts.Execution SocControl Input) (rf : Nat → RegisterFile) : Prop where
  step : ∀ k, ∃ i : RegisterFile.Input, i.extra_addr = (e.states k).regfile_addr ∧
    rf (k + 1) = (rf k).next i
  data : ∀ k, (e.labels k).regfile_read_data = (rf k).extra_read_data

/-- The value of the source of a read in cycle `k`. -/
def source_value (e : Lts.Execution SocControl Input) (rf : Nat → RegisterFile) (addr : Word)
    (k : Nat) : Word :=
  if selector addr = SUB_SEL_CTRL then
    control_value (e.states k) (e.labels k) (window_offset addr)
  else (rf k).read (register_field addr)

section edges
variable (hs : ∀ k, e.states (k + 1) = (e.states k).next (e.labels k)) {ta tw : Nat}
include hs

/-- The state after an accepted read address, until the answer is taken. -/
theorem state_of_read
    (h : ar_handshake (e.labels ta).s_axi (e.states ta).s_axi = true) {j : Nat} (hj : ta < j)
    (hno : ∀ n, ta < n → n < j → r_handshake (e.labels n).s_axi (e.states n).s_axi = false) :
    (e.states j).state =
      if j = ta + 1 then .read_issue else if j = ta + 2 then .read_wait_done else .read_resp := by
  induction j, hj using Nat.le_induction with
  | base =>
    rw [if_pos rfl]
    exact (read_issue_after hs h).1
  | succ j hj ih =>
    have hst := ih (fun n hn hnj => hno n hn (by omega))
    rw [if_neg (by omega), hs j]
    by_cases h1 : j = ta + 1
    · rw [if_pos h1] at hst
      rw [if_pos (by omega)]
      show (e.states j).next_state (e.labels j) = _
      simp only [next_state, hst]
    by_cases h2 : j = ta + 2
    · rw [if_neg h1, if_pos h2] at hst
      rw [if_neg (by omega)]
      exact (next_of_read_wait_done _ hst).1
    · rw [if_neg h1, if_neg h2] at hst
      have hready : (e.labels j).s_axi.rready = false := by
        simpa [r_handshake, s_axi, hst] using hno j (by omega) (by omega)
      rw [if_neg (by omega), (next_of_read_resp _ hst).1, hready]
      rfl

/-- A read makes no command, and it leaves the stall alone. -/
theorem read_is_pure
    (h : ar_handshake (e.labels ta).s_axi (e.states ta).s_axi = true) {j : Nat} (hj : ta ≤ j)
    (hno : ∀ n, ta < n → n < j → r_handshake (e.labels n).s_axi (e.states n).s_axi = false) :
    (e.states j).state ≠ .write_issue ∧ (e.states j).state ≠ .write_wait_done := by
  rcases Nat.eq_or_lt_of_le hj with rfl | hlt
  · have hidle : (e.states ta).state = .idle := by
      have hboth : (e.labels ta).s_axi.arvalid = true ∧ (e.states ta).state = .idle := by
        simpa [ar_handshake, s_axi] using h
      exact hboth.2
    rw [hidle]
    exact ⟨by decide, by decide⟩
  · rw [state_of_read hs h hlt hno]
    repeat' split
    all_goals exact ⟨by decide, by decide⟩

/-- An offered read answer stays as it is until it is taken. -/
theorem read_answer_held {k : Nat} (hv : (e.states k).s_axi.rvalid = true)
    (hr : (e.labels k).s_axi.rready = false) :
    (e.states (k + 1)).s_axi.rvalid = true ∧
      (e.states (k + 1)).s_axi.rdata = (e.states k).s_axi.rdata ∧
      (e.states (k + 1)).s_axi.rresp = (e.states k).s_axi.rresp := by
  have hst : (e.states k).state = .read_resp := by simpa [s_axi] using hv
  obtain ⟨hnext, hop, hdata⟩ := next_of_read_resp (e.labels k) hst
  rw [hr] at hnext
  rw [hs k]
  simp [s_axi, hst, hnext, hop, hdata]

theorem write_answer_held {k : Nat} (hv : (e.states k).s_axi.bvalid = true)
    (hr : (e.labels k).s_axi.bready = false) :
    (e.states (k + 1)).s_axi.bvalid = true ∧
      (e.states (k + 1)).s_axi.bresp = (e.states k).s_axi.bresp := by
  have hst : (e.states k).state = .write_resp := by simpa [s_axi] using hv
  obtain ⟨hnext, hop, -⟩ := next_of_write_resp (e.labels k) hst
  rw [hr] at hnext
  rw [hs k]
  simp [s_axi, hst, hnext, hop]

/-- After an accepted address the module takes the data as soon as it comes. -/
theorem write_data_accepted
    (h : aw_handshake (e.labels ta).s_axi (e.states ta).s_axi = true) {tj : Nat} (hj : ta < tj)
    (hw : (e.labels tj).s_axi.wvalid = true) :
    ∃ tw, ta < tw ∧ tw ≤ tj ∧ w_handshake (e.labels tw).s_axi (e.states tw).s_axi = true := by
  have hboth : (e.labels ta).s_axi.awvalid = true ∧ (e.states ta).state = .write_recv_addr := by
    simpa [aw_handshake, s_axi] using h
  have hfirst : (e.states (ta + 1)).state = .write_recv_data := by
    rw [hs ta, (next_of_recv_addr _ hboth.2).1, hboth.1]
    rfl
  by_contra hnone
  have hstay : (e.states tj).state = .write_recv_data := by
    refine Lts.stretch_induction (P := fun j => (e.states j).state = .write_recv_data) hj hfirst ?_
    intro k hk hkj hst
    have hv : (e.labels k).s_axi.wvalid = false := by
      apply Bool.eq_false_of_not_eq_true
      intro hc
      exact hnone ⟨k, hk, by omega, by simp [w_handshake, s_axi, hst, hc]⟩
    rw [hs k, (next_of_recv_data _ hst).1, hv]
    rfl
  exact hnone ⟨tj, hj, Nat.le_refl _, by simp [w_handshake, s_axi, hstay, hw]⟩

/-- A write is answered when the master is ready for it. -/
theorem write_answered
    (h : w_handshake (e.labels tw).s_axi (e.states tw).s_axi = true) {tj : Nat}
    (hj : tw + 3 ≤ tj) (hr : (e.labels tj).s_axi.bready = true) :
    ∃ tb, tw < tb ∧ tb ≤ tj ∧ b_handshake (e.labels tb).s_axi (e.states tb).s_axi = true := by
  have hboth : (e.labels tw).s_axi.wvalid = true ∧ (e.states tw).state = .write_recv_data := by
    simpa [w_handshake, s_axi] using h
  have hissue : (e.states (tw + 1)).state = .write_issue := by
    rw [hs tw, (next_of_recv_data _ hboth.2).1, hboth.1]
    rfl
  have hdone : (e.states (tw + 2)).state = .write_wait_done := by
    rw [hs (tw + 1)]
    exact (next_of_write_issue _ hissue).1
  have hresp : (e.states (tw + 3)).state = .write_resp := by
    rw [hs (tw + 2)]
    exact next_of_write_wait_done _ hdone
  by_contra hnone
  have hstay : (e.states tj).state = .write_resp := by
    refine Lts.stretch_induction (P := fun j => (e.states j).state = .write_resp) hj hresp ?_
    intro k hk hkj hst
    have hv : (e.labels k).s_axi.bready = false := by
      apply Bool.eq_false_of_not_eq_true
      intro hc
      exact hnone ⟨k, by omega, by omega, by simp [b_handshake, s_axi, hst, hc]⟩
    rw [hs k, (next_of_write_resp _ hst).1, hv]
    rfl
  exact hnone ⟨tj, by omega, Nat.le_refl _, by simp [b_handshake, s_axi, hstay, hr]⟩

theorem read_answered
    (h : ar_handshake (e.labels ta).s_axi (e.states ta).s_axi = true) {tj : Nat}
    (hj : ta + 3 ≤ tj) (hr : (e.labels tj).s_axi.rready = true) :
    ∃ tr, ta < tr ∧ tr ≤ tj ∧ r_handshake (e.labels tr).s_axi (e.states tr).s_axi = true := by
  by_contra hnone
  have hst := state_of_read hs h (j := tj) (by omega) (by
    intro n hn hnj
    apply Bool.eq_false_of_not_eq_true
    intro hc
    exact hnone ⟨n, hn, by omega, hc⟩)
  rw [if_neg (by omega), if_neg (by omega)] at hst
  exact hnone ⟨tj, by omega, Nat.le_refl _, by simp [r_handshake, s_axi, hst, hr]⟩

/-- The value of a read is what its source held in READ_ISSUE. -/
theorem read_value_source {rf : Nat → RegisterFile} (hrf : Attached e rf)
    (h : ar_handshake (e.labels ta).s_axi (e.states ta).s_axi = true)
    (hans : answered_read (e.labels ta).s_axi.araddr) :
    read_value e ta = source_value e rf (e.labels ta).s_axi.araddr (ta + 1) := by
  obtain ⟨hst, -, haddr⟩ := read_issue_after hs h
  rw [read_value, source_value]
  rcases hans with ⟨hctrl, -⟩ | ⟨hsel, r, hoff⟩
  · rw [if_pos hctrl, if_pos hctrl]
  · -- the registered port was addressed in READ_ISSUE
    have hport := read_issue_regfile_addr hst haddr hsel hoff
    have hfield : register_field (e.labels ta).s_axi.araddr = r := by
      rw [register_field, hoff, register_offset_field]
    obtain ⟨i, hi, hnext⟩ := hrf.step (ta + 1)
    have hread : (rf (ta + 2)).extra_read_data = (rf (ta + 1)).read i.extra_addr := by
      rw [hnext]
      rfl
    rw [hsel, if_neg (by decide), if_neg (by decide), hrf.data (ta + 2), hread, hi, hport, hfield]

theorem read_data_sampled {rf : Nat → RegisterFile} (hrf : Attached e rf) {tr : Nat}
    (h : ReadTransaction e ta tr) (hok : (e.states tr).s_axi.rresp = AXI_RESP_OKAY) :
    (e.states tr).s_axi.rdata =
      source_value e rf (e.labels ta).s_axi.araddr (ta + 1) := by
  obtain ⟨hiff, -, hdata, -⟩ := h.answered hs
  have hans := hiff.mp hok
  rw [hdata hans, read_value_source hs hrf h.address hans]

end edges

end run

/-- What the module guarantees to its master over a run. -/
structure SlaveContract (e : Lts.Execution SocControl Input) (rf : Nat → RegisterFile) :
    Prop where
  /-- One block for each transaction, in order; the last may be unanswered. -/
  blocks : ∀ k, ∃ (blocks : List (List ControlEvent)) (tail rest : List ControlEvent),
    (∀ b ∈ blocks, Answered b) ∧ rest ≠ [] ∧ Answered (tail ++ rest) ∧
      e.log control_events k = blocks.flatten ++ tail
  /-- An accepted address is answered once the master takes the answer. -/
  read_answered : ∀ ta tj, ar_handshake (e.labels ta).s_axi (e.states ta).s_axi = true →
    ta + 3 ≤ tj → (e.labels tj).s_axi.rready = true →
    ∃ tr, ta < tr ∧ tr ≤ tj ∧ r_handshake (e.labels tr).s_axi (e.states tr).s_axi = true
  data_accepted : ∀ ta tj, aw_handshake (e.labels ta).s_axi (e.states ta).s_axi = true →
    ta < tj → (e.labels tj).s_axi.wvalid = true →
    ∃ tw, ta < tw ∧ tw ≤ tj ∧ w_handshake (e.labels tw).s_axi (e.states tw).s_axi = true
  write_answered : ∀ tw tj, w_handshake (e.labels tw).s_axi (e.states tw).s_axi = true →
    tw + 3 ≤ tj → (e.labels tj).s_axi.bready = true →
    ∃ tb, tw < tb ∧ tb ≤ tj ∧ b_handshake (e.labels tb).s_axi (e.states tb).s_axi = true
  read_held : ∀ k, (e.states k).s_axi.rvalid = true → (e.labels k).s_axi.rready = false →
    (e.states (k + 1)).s_axi.rvalid = true ∧
      (e.states (k + 1)).s_axi.rdata = (e.states k).s_axi.rdata ∧
      (e.states (k + 1)).s_axi.rresp = (e.states k).s_axi.rresp
  write_held : ∀ k, (e.states k).s_axi.bvalid = true → (e.labels k).s_axi.bready = false →
    (e.states (k + 1)).s_axi.bvalid = true ∧
      (e.states (k + 1)).s_axi.bresp = (e.states k).s_axi.bresp
  /-- From its address to its answer a read raises no enable and keeps the
      stall. -/
  read_pure : ∀ ta j, ar_handshake (e.labels ta).s_axi (e.states ta).s_axi = true → ta ≤ j →
    (∀ n, ta < n → n < j → r_handshake (e.labels n).s_axi (e.states n).s_axi = false) →
    (e.states j).regfile_write_enable = false ∧ (e.states j).regfile_fault_enable = false ∧
      (e.states j).pc_write_enable = false ∧
      (e.states (j + 1)).pc_stall = (e.states j).pc_stall
  one_command : ∀ addr data strb, (command addr data strb).length ≤ 1
  read_data : ∀ ta tr, ReadTransaction e ta tr → (e.states tr).s_axi.rresp = AXI_RESP_OKAY →
    (e.states tr).s_axi.rdata = source_value e rf (e.labels ta).s_axi.araddr (ta + 1)

/-- The control module is a correct AXI4-Lite slave for every master. -/
theorem slave_contract {e : Lts.Execution SocControl Input} (hv : system.valid_exec e)
    {rf : Nat → RegisterFile} (hrf : Attached e rf) : SlaveContract e rf where
  blocks k := by
    obtain ⟨blocks, tail, hblocks, htail, hlog⟩ := e.log_blocks control_events
      (P := fun k tail => InProgress (e.states k) tail) (by
        rw [hv.1]
        rfl)
      (by
        intro k tail htail
        rw [hv.2 k]
        exact htail.next (e.labels k)) k
    obtain ⟨rest, hne, hrest⟩ := htail.unanswered
    exact ⟨blocks, tail, rest, hblocks, hne, hrest, hlog⟩
  read_answered _ _ h hj hr := read_answered hv.2 h hj hr
  data_accepted _ _ h hj hw := write_data_accepted hv.2 h hj hw
  write_answered _ _ h hj hr := write_answered hv.2 h hj hr
  read_held _ hvalid hr := read_answer_held hv.2 hvalid hr
  write_held _ hvalid hr := write_answer_held hv.2 hvalid hr
  read_pure _ j h hj hno := by
    obtain ⟨hissue, hdone⟩ := read_is_pure hv.2 h hj hno
    obtain ⟨hreg, hfault, hpc⟩ := enables_low hissue
    rw [hv.2 j]
    exact ⟨hreg, hfault, hpc, pc_stall_next _ hissue hdone⟩
  one_command := command_length_le_one
  read_data _ _ h hok := read_data_sampled hv.2 hrf h hok

/-- A master that reads x5 and writes the PC. The data of the write is on the
    port from the beginning, its address comes during the read. -/
def read_then_write (k : Nat) : Input where
  s_axi :=
    { Master.idle with
      arvalid := k == 0, araddr := 0x2014#32, rready := true
      awvalid := 2 ≤ k && k ≤ 5, awaddr := 0x1010#32
      wvalid := k ≤ 6, wdata := 0x2000#32, wstrb := 0b1111#4
      bready := 10 ≤ k }
  pc_read_data := 0#32
  regfile_read_data := 0#32
  core_debug_vector := 0#32

/-- Nobody writes the register file. -/
def unwritten (c : SocControl) : RegisterFile.Input where
  write_enable := false
  write_addr := 0#5
  write_data := 0#32
  extra_addr := c.regfile_addr
  extra_write_enable := false
  extra_write_data := 0#32
  fault_write_enable := false
  fault_addr := 0#5
  fault_mode := 0#2
  fault_mask := 0#32

/-- The read is answered before the write is accepted; the write reaches the
    PC once, and its answer waits for the master. -/
theorem slave_contract_read_then_write :
    SlaveContract (.of_inputs next reset read_then_write) (fun _ => RegisterFile.reset) ∧
    (Lts.Execution.of_inputs next reset read_then_write).log control_events 11 =
      [.ar 0x2014#32, .r 0#32 AXI_RESP_OKAY, .aw 0x1010#32, .w 0x2000#32 0b1111#4,
        .pc 0x2000#32, .b AXI_RESP_OKAY] := by
  have hv : system.valid_exec (.of_inputs next reset read_then_write) := ⟨rfl, fun _ => rfl⟩
  refine ⟨slave_contract hv ⟨?_, fun _ => rfl⟩, by decide +kernel⟩
  intro k
  refine ⟨unwritten ((Lts.Execution.of_inputs next reset read_then_write).states k), rfl, ?_⟩
  -- all registers are zero, so the registered port is zero as well
  have hread : ∀ a, RegisterFile.reset.read a = 0#32 := by
    intro a
    unfold RegisterFile.read
    split <;> rfl
  simp only [RegisterFile.next, unwritten, hread]
  rfl

end SocControl

end RiscvWorker
