import RiscvWorker.Library.Lts
import RiscvWorker.Control.AddressMap

/-! # Transactions of the control module

  A transaction is an interval of a run, given by its handshakes. The module
  works on one transaction at a time, so the handshakes determine the state
  in every cycle of the interval. The environment is arbitrary: the master
  may take any time for its part, and the core may return anything.
-/

namespace RiscvWorker

open AxiLite (Master Slave aw_handshake w_handshake b_handshake ar_handshake r_handshake)

namespace SocControl

/-- The control module in an arbitrary environment. -/
def system : Lts.System SocControl Input where
  init c := c = reset
  step c i c' := c' = c.next i

/-! ### Clock edges, state by state -/

section edges
variable {c : SocControl} (i : Input)

theorem next_of_write_request (h : c.state = .idle) (har : i.s_axi.arvalid = false)
    (haw : i.s_axi.awvalid = true) :
    (c.next i).state = .write_recv_addr ∧ (c.next i).control_address_valid = false ∧
      (c.next i).pc_stall = c.pc_stall := by
  simp [next, next_state, control_address_valid', pc_stall', h, har, haw]

theorem next_of_read_request (h : c.state = .idle) (har : i.s_axi.arvalid = true) :
    (c.next i).state = .read_issue ∧ (c.next i).control_address_valid = false ∧
      (c.next i).latched_address = i.s_axi.araddr.extractLsb' 0 16 := by
  simp [next, next_state, control_address_valid', latched_address', h, har]

theorem next_of_recv_addr (h : c.state = .write_recv_addr) :
    (c.next i).state = (if i.s_axi.awvalid then .write_recv_data else .write_recv_addr) ∧
      (c.next i).latched_address =
        (if i.s_axi.awvalid then i.s_axi.awaddr.extractLsb' 0 16 else c.latched_address) ∧
      (c.next i).control_address_valid = c.control_address_valid ∧
      (c.next i).pc_stall = c.pc_stall := by
  simp [next, next_state, control_address_valid', latched_address', pc_stall', h]

theorem next_of_recv_data (h : c.state = .write_recv_data) :
    (c.next i).state = (if i.s_axi.wvalid then .write_issue else .write_recv_data) ∧
      (c.next i).latched_write_data =
        (if i.s_axi.wvalid then i.s_axi.wdata else c.latched_write_data) ∧
      (c.next i).latched_write_strobe =
        (if i.s_axi.wvalid then i.s_axi.wstrb else c.latched_write_strobe) ∧
      (c.next i).latched_address = c.latched_address ∧
      (c.next i).control_address_valid = c.control_address_valid ∧
      (c.next i).pc_stall = c.pc_stall := by
  simp [next, next_state, control_address_valid', latched_address', latched_write_data',
    latched_write_strobe', pc_stall', h]

theorem next_of_write_issue (h : c.state = .write_issue) :
    (c.next i).state = .write_wait_done ∧ (c.next i).latched_address = c.latched_address ∧
      (c.next i).latched_write_strobe = c.latched_write_strobe := by
  simp [next, next_state, latched_address', latched_write_strobe', h]

theorem next_of_write_wait_done (h : c.state = .write_wait_done) :
    (c.next i).state = .write_resp := by
  simp [next, next_state, op_done, h]

theorem next_of_write_resp (h : c.state = .write_resp) :
    (c.next i).state = (if i.s_axi.bready then .idle else .write_resp) ∧
      (c.next i).op_successful = c.op_successful ∧ (c.next i).pc_stall = c.pc_stall := by
  simp [next, next_state, op_successful', pc_stall', op_done, h]

/-- Nothing is written outside WRITE_ISSUE. -/
theorem enables_low (h : c.state ≠ .write_issue) :
    c.regfile_write_enable = false ∧ c.regfile_fault_enable = false ∧
      c.pc_write_enable = false := by
  simp [regfile_write_enable, regfile_fault_enable, pc_write_enable, h]

/-- The stall changes in two states only. -/
theorem pc_stall_next (hi : c.state ≠ .write_issue) (hd : c.state ≠ .write_wait_done) :
    (c.next i).pc_stall = c.pc_stall := by
  show c.pc_stall' = c.pc_stall
  unfold pc_stall'
  split
  · rename_i h
    exact absurd h hi
  · rename_i h
    exact absurd h hd
  · rfl

/-- A START or a STEP is issued in this cycle, whatever its strobe. -/
def releasing (c : SocControl) : Bool :=
  c.state == .write_issue && c.control_selected &&
    (c.sub_addr == CTRL_REG_START || c.sub_addr == CTRL_REG_STEP)

/-- Something that reaches the core is issued in this cycle: a START or a
    STEP, or a write to the PC, a register or a fault address. -/
def disturbing (c : SocControl) : Bool :=
  c.releasing || c.regfile_write_enable || c.regfile_fault_enable || c.pc_write_enable

theorem releasing_of_not_issue (h : c.state ≠ .write_issue) : c.releasing = false := by
  simp [releasing, h]

/-- A stalled core stays stalled until the next START or STEP. -/
theorem stall_kept (hst : c.pc_stall = true) (hno : c.releasing = false) :
    (c.next i).pc_stall = true := by
  show c.pc_stall' = true
  unfold pc_stall'
  split
  · -- WRITE_ISSUE of anything but a START or a STEP
    rename_i hissue
    simp only [releasing, hissue, beq_self_eq_true, Bool.true_and] at hno
    repeat' split
    all_goals simp_all
  · -- WRITE_WAIT_DONE only ever raises the stall
    repeat' split
    all_goals simp_all
  · exact hst

theorem next_of_idle (h : c.state = .idle) (har : i.s_axi.arvalid = false)
    (haw : i.s_axi.awvalid = false) : (c.next i).state = .idle := by
  simp [next, next_state, h, har, haw]

/-- Where WRITE_WAIT_DONE comes from. -/
theorem of_next_write_wait_done (h : (c.next i).state = .write_wait_done) :
    c.state = .write_issue := by
  have h' : c.next_state i = .write_wait_done := h
  revert h'
  unfold next_state op_done
  repeat' split
  all_goals simp_all

/-- Where WRITE_RESP comes from. -/
theorem of_next_write_resp (h : (c.next i).state = .write_resp) :
    c.state = .write_wait_done ∨ c.state = .write_resp := by
  have h' : c.next_state i = .write_resp := h
  revert h'
  unfold next_state
  repeat' split
  all_goals simp_all

end edges

/-- Without requests nothing is issued. -/
theorem stays_idle {e : Lts.Execution SocControl Input}
    (hs : ∀ k, e.states (k + 1) = (e.states k).next (e.labels k)) {n : Nat}
    (hidle : (e.states n).state = .idle)
    {j : Nat} (hj : n ≤ j) (hno : ∀ k, n ≤ k → k < j →
      (e.labels k).s_axi.arvalid = false ∧ (e.labels k).s_axi.awvalid = false) :
    (e.states j).state = .idle := by
  refine Lts.stretch_induction (P := fun j => (e.states j).state = .idle) hj hidle ?_
  intro k hk hkj hst
  obtain ⟨har, haw⟩ := hno k hk hkj
  rw [hs k]
  exact next_of_idle _ hst har haw

/-! ### The effect and the verdict of an issued write -/

section issue
variable {c : SocControl} {addr : Word} {i i' : Input}

/-- What WRITE_ISSUE and the cycle after it make of the stall. -/
def issued_stall (stall : Bool) (addr : Word) : Bool :=
  if selector addr = SUB_SEL_CTRL then
    if window_offset addr = CTRL_REG_START then false
    else if window_offset addr = CTRL_REG_STOP then true
    else if window_offset addr = CTRL_REG_STEP then true
    else stall
  else stall

variable (h : c.state = .write_issue) (ha : c.latched_address = addr.extractLsb' 0 16)
include h ha

theorem issue_pc_write_enable :
    c.pc_write_enable = true ↔
      selector addr = SUB_SEL_CTRL ∧ window_offset addr = CTRL_REG_PC := by
  simp only [pc_write_enable, h, control_selected, sub_selector_eq ha, sub_addr_eq ha,
    Bool.and_eq_true, beq_iff_eq, true_and]

theorem issue_regfile_write_enable :
    c.regfile_write_enable = true ↔
      c.latched_write_strobe = 0b1111#4 ∧ selector addr = SUB_SEL_REGFILE ∧
        ∃ r, r ≠ 0#5 ∧ window_offset addr = register_offset r := by
  have hv := regfile_write_valid_iff ha
  simp only [regfile_write_enable, h, regfile_selected, sub_selector_eq ha, Bool.and_eq_true,
    beq_iff_eq, true_and, hv]
  constructor
  · rintro ⟨_, hv⟩
    exact hv
  · intro hv
    exact ⟨hv.2.1, hv⟩

theorem issue_regfile_fault_enable :
    c.regfile_fault_enable = true ↔
      c.latched_write_strobe = 0b1111#4 ∧ selector addr = SUB_SEL_FAULT ∧
        ∃ mode r, r ≠ 0#5 ∧ window_offset addr = fault_offset mode r := by
  have hv := fault_write_valid_iff ha
  simp only [regfile_fault_enable, h, fault_selected, sub_selector_eq ha, Bool.and_eq_true,
    beq_iff_eq, true_and, hv]
  constructor
  · rintro ⟨_, hv⟩
    exact hv
  · intro hv
    exact ⟨hv.2.1, hv⟩

/-- The stall in the cycle after WRITE_ISSUE. -/
theorem issue_pc_stall :
    (c.next i).pc_stall =
      if selector addr = SUB_SEL_CTRL then
        if window_offset addr = CTRL_REG_START then false
        else if window_offset addr = CTRL_REG_STOP then true
        else if window_offset addr = CTRL_REG_STEP then false
        else c.pc_stall
      else c.pc_stall := by
  simp only [next, pc_stall', h, control_selected, sub_selector_eq ha, sub_addr_eq ha, beq_iff_eq]

/-- The stall after a write: STEP raises it again. -/
theorem wait_done_pc_stall : ((c.next i).next i').pc_stall = issued_stall c.pc_stall addr := by
  obtain ⟨hst, hla, -⟩ := next_of_write_issue i h
  have hla' := hla.trans ha
  have hsel := sub_selector_eq hla'
  have hsub := sub_addr_eq hla'
  have hstall := issue_pc_stall (i := i) h ha
  have hnext : ((c.next i).next i').pc_stall =
      if selector addr = SUB_SEL_CTRL then
        if window_offset addr = CTRL_REG_STEP then true else (c.next i).pc_stall
      else (c.next i).pc_stall := by
    show (c.next i).pc_stall' = _
    simp only [pc_stall', hst, control_selected, hsel, hsub, beq_iff_eq]
  rw [hnext, hstall, issued_stall]
  repeat' split
  all_goals simp_all

/-- The answer of a write follows the map. -/
theorem issue_op_successful (hcav : c.control_address_valid = false) :
    ((c.next i).next i').op_successful = true ↔ okay_write addr c.latched_write_strobe := by
  obtain ⟨hst, hla, hstrb⟩ := next_of_write_issue i h
  have hla' := hla.trans ha
  have hsel := sub_selector_eq hla'
  have hsub := sub_addr_eq hla'
  have hreg := regfile_write_valid_iff hla'
  have hfault := fault_write_valid_iff hla'
  -- the flag is low before WRITE_ISSUE, so it is set by this write or by none
  have hcav' : (c.next i).control_address_valid = true ↔
      selector addr = SUB_SEL_CTRL ∧ is_control_write (window_offset addr) := by
    show c.control_address_valid' = true ↔ _
    simp only [control_address_valid', h, control_selected, sub_selector_eq ha, sub_addr_eq ha,
      beq_iff_eq, hcav, is_control_write]
    repeat' split
    all_goals simp_all
  have haligned := @is_control_write_aligned (window_offset addr)
  rw [hstrb] at hreg hfault
  show (c.next i).op_successful' = true ↔ _
  have hdone : (c.next i).op_done = true := by simp [op_done, hst]
  unfold op_successful'
  rw [if_pos hdone, hsel, okay_write]
  -- window by window: the other two alternatives of the map are excluded
  by_cases hctrl : selector addr = SUB_SEL_CTRL
  · rw [if_pos hctrl]
    simp only [control_op_successful, hst, control_write_valid, control_read_valid,
      control_selected, sub_addr_aligned, write_strobe_full, hstrb, hsel, hsub, Bool.and_eq_true,
      beq_iff_eq, hcav', hctrl]
    constructor
    · rintro ⟨⟨⟨_, _, hw⟩, _⟩, hs⟩
      exact ⟨hs, Or.inl ⟨trivial, hw⟩⟩
    · rintro ⟨hs, hw⟩
      rcases hw with ⟨-, hw⟩ | ⟨hsel', -⟩ | ⟨hsel', -⟩
      · exact ⟨⟨⟨trivial, trivial, hw⟩, haligned hw⟩, hs⟩
      · simp at hsel'
      · simp at hsel'
  rw [if_neg hctrl]
  by_cases hrf : selector addr = SUB_SEL_REGFILE
  · have hop : (c.next i).regfile_op_successful = (c.next i).regfile_write_valid := by
      simp only [regfile_op_successful, hst, regfile_selected, hsel, hrf, beq_self_eq_true, if_true]
    rw [if_pos hrf, hop, hreg]
    constructor
    · rintro ⟨hs, _, hr⟩
      exact ⟨hs, Or.inr (Or.inl ⟨hrf, hr⟩)⟩
    · rintro ⟨hs, ⟨hc, -⟩ | hr | ⟨hf, -⟩⟩
      · exact absurd hc hctrl
      · exact ⟨hs, hr⟩
      · rw [hrf] at hf
        simp at hf
  rw [if_neg hrf]
  by_cases hft : selector addr = SUB_SEL_FAULT
  · have hop : (c.next i).fault_op_successful = (c.next i).fault_write_valid := by
      simp only [fault_op_successful, hst, fault_selected, hsel, hft, beq_self_eq_true, if_true]
    rw [if_pos hft, hop, hfault]
    constructor
    · rintro ⟨hs, _, hr⟩
      exact ⟨hs, Or.inr (Or.inr ⟨hft, hr⟩)⟩
    · rintro ⟨hs, ⟨hc, -⟩ | ⟨hr, -⟩ | hf⟩
      · exact absurd hc hctrl
      · exact absurd hr hrf
      · exact ⟨hs, hf⟩
  · rw [if_neg hft]
    constructor
    · intro hc
      simp at hc
    · rintro ⟨-, ⟨hc, -⟩ | ⟨hr, -⟩ | ⟨hf, -⟩⟩
      · exact absurd hc hctrl
      · exact absurd hr hrf
      · exact absurd hf hft

end issue

/-! ### Write transactions -/

section write
variable (e : Lts.Execution SocControl Input)

/-- A write on the control port: the module takes up the request in cycle
    `t`, the address is transferred in `ta`, the data in `tw` and the answer
    in `tb`. -/
structure WriteTransaction (t ta tw tb : Nat) : Prop where
  start : (e.states t).state = .idle ∧ (e.labels t).s_axi.arvalid = false ∧
    (e.labels t).s_axi.awvalid = true
  address : t < ta ∧ aw_handshake (e.labels ta).s_axi (e.states ta).s_axi = true ∧
    ∀ j, t < j → j < ta → aw_handshake (e.labels j).s_axi (e.states j).s_axi = false
  data : ta < tw ∧ w_handshake (e.labels tw).s_axi (e.states tw).s_axi = true ∧
    ∀ j, ta < j → j < tw → w_handshake (e.labels j).s_axi (e.states j).s_axi = false
  answer : tw < tb ∧ b_handshake (e.labels tb).s_axi (e.states tb).s_axi = true ∧
    ∀ j, tw < j → j < tb → b_handshake (e.labels j).s_axi (e.states j).s_axi = false

/-- The state of the module in a cycle of a transaction before WRITE_ISSUE:
    nothing has happened yet. -/
structure Receiving (c₀ c : SocControl) (st : SocState) : Prop where
  state : c.state = st
  cav : c.control_address_valid = false
  stall : c.pc_stall = c₀.pc_stall

variable {e} {t ta tw tb : Nat} (hs : ∀ k, e.states (k + 1) = (e.states k).next (e.labels k))
  (h : WriteTransaction e t ta tw tb)
include hs h

theorem WriteTransaction.recv_addr {j : Nat} (hj : t < j) (hja : j ≤ ta) :
    Receiving (e.states t) (e.states j) .write_recv_addr := by
  refine Lts.stretch_induction (j := t + 1) (P := fun j => Receiving (e.states t) (e.states j)
    .write_recv_addr) hj ?_ ?_
  · obtain ⟨hst, har, haw⟩ := h.start
    obtain ⟨h1, h2, h3⟩ := next_of_write_request (e.labels t) hst har haw
    rw [← hs t] at h1 h2 h3
    exact ⟨h1, h2, h3⟩
  · intro k hk hkj hP
    -- the module is ready all the time, so no transfer means no address
    have hno := h.address.2.2 k (by omega) (by omega)
    have hv : (e.labels k).s_axi.awvalid = false := by
      simpa [aw_handshake, s_axi, hP.state] using hno
    obtain ⟨h1, -, h3, h4⟩ := next_of_recv_addr (e.labels k) hP.state
    rw [← hs k, hv] at h1
    rw [← hs k] at h3 h4
    exact ⟨h1, h3.trans hP.cav, h4.trans hP.stall⟩

theorem WriteTransaction.recv_data {j : Nat} (hj : ta < j) (hjw : j ≤ tw) :
    Receiving (e.states t) (e.states j) .write_recv_data ∧
      (e.states j).latched_address = (e.labels ta).s_axi.awaddr.extractLsb' 0 16 := by
  refine Lts.stretch_induction (j := ta + 1) (P := fun j =>
    Receiving (e.states t) (e.states j) .write_recv_data ∧
      (e.states j).latched_address = (e.labels ta).s_axi.awaddr.extractLsb' 0 16) hj ?_ ?_
  · have hP := h.recv_addr hs h.address.1 (Nat.le_refl ta)
    have hv : (e.labels ta).s_axi.awvalid = true := by
      simpa [aw_handshake, s_axi, hP.state] using h.address.2.1
    obtain ⟨h1, h2, h3, h4⟩ := next_of_recv_addr (e.labels ta) hP.state
    rw [← hs ta, hv] at h1 h2
    rw [← hs ta] at h3 h4
    exact ⟨⟨h1, h3.trans hP.cav, h4.trans hP.stall⟩, h2⟩
  · intro k hk hkj hprev
    obtain ⟨hP, haddr⟩ := hprev
    have hno := h.data.2.2 k (by omega) (by omega)
    have hv : (e.labels k).s_axi.wvalid = false := by
      simpa [w_handshake, s_axi, hP.state] using hno
    obtain ⟨h1, -, -, h4, h5, h6⟩ := next_of_recv_data (e.labels k) hP.state
    rw [← hs k, hv] at h1
    rw [← hs k] at h4 h5 h6
    exact ⟨⟨h1, h5.trans hP.cav, h6.trans hP.stall⟩, h4.trans haddr⟩

/-- The write is issued one cycle after its data was transferred. -/
theorem WriteTransaction.issue :
    Receiving (e.states t) (e.states (tw + 1)) .write_issue ∧
      (e.states (tw + 1)).latched_address = (e.labels ta).s_axi.awaddr.extractLsb' 0 16 ∧
      (e.states (tw + 1)).latched_write_data = (e.labels tw).s_axi.wdata ∧
      (e.states (tw + 1)).latched_write_strobe = (e.labels tw).s_axi.wstrb := by
  obtain ⟨hP, haddr⟩ := h.recv_data hs h.data.1 (Nat.le_refl tw)
  have hv : (e.labels tw).s_axi.wvalid = true := by
    simpa [w_handshake, s_axi, hP.state] using h.data.2.1
  obtain ⟨h1, h2, h3, h4, h5, h6⟩ := next_of_recv_data (e.labels tw) hP.state
  rw [← hs tw, hv] at h1 h2 h3
  rw [← hs tw] at h4 h5 h6
  exact ⟨⟨h1, h5.trans hP.cav, h6.trans hP.stall⟩, h4.trans haddr, h2, h3⟩

theorem WriteTransaction.wait_done :
    (e.states (tw + 2)).state = .write_wait_done := by
  obtain ⟨hP, -, -, -⟩ := h.issue hs
  rw [hs (tw + 1)]
  exact (next_of_write_issue _ hP.state).1

/-- The answer is offered from the third cycle after the data on. -/
theorem WriteTransaction.answer_after : tw + 3 ≤ tb := by
  obtain ⟨hP, -, -, -⟩ := h.issue hs
  have hd := h.wait_done hs
  have hb := h.answer.2.1
  have hlt := h.answer.1
  by_contra hc
  -- BVALID is low in WRITE_ISSUE and in WRITE_WAIT_DONE
  have hcases : tb = tw + 1 ∨ tb = tw + 2 := by omega
  rcases hcases with rfl | rfl
  · simp [b_handshake, s_axi, hP.state] at hb
  · simp [b_handshake, s_axi, hd] at hb

/-- While the answer is offered, the verdict and the stall do not change. -/
theorem WriteTransaction.resp {j : Nat} (hj : tw + 3 ≤ j) (hjb : j ≤ tb) :
    (e.states j).state = .write_resp ∧
      (e.states j).op_successful = (e.states (tw + 3)).op_successful ∧
      (e.states j).pc_stall = (e.states (tw + 3)).pc_stall := by
  refine Lts.stretch_induction (j := tw + 3) (P := fun j => (e.states j).state = .write_resp ∧
      (e.states j).op_successful = (e.states (tw + 3)).op_successful ∧
      (e.states j).pc_stall = (e.states (tw + 3)).pc_stall) hj ?_ ?_
  · refine ⟨?_, rfl, rfl⟩
    rw [hs (tw + 2)]
    exact next_of_write_wait_done _ (h.wait_done hs)
  · intro k hk hkj hprev
    obtain ⟨hst, hop, hstall⟩ := hprev
    have hno := h.answer.2.2 k (by omega) (by omega)
    have hv : (e.labels k).s_axi.bready = false := by
      simpa [b_handshake, s_axi, hst] using hno
    obtain ⟨h1, h2, h3⟩ := next_of_write_resp (e.labels k) hst
    rw [← hs k, hv] at h1
    rw [← hs k] at h2 h3
    exact ⟨h1, h2.trans hop, h3.trans hstall⟩

/-- The state in each cycle of a transaction other than WRITE_ISSUE. -/
theorem WriteTransaction.not_issue {j : Nat} (hj : t ≤ j) (hjb : j ≤ tb) (hne : j ≠ tw + 1) :
    (e.states j).state ≠ .write_issue := by
  intro hc
  have hta := h.address.1
  have htw := h.data.1
  by_cases h0 : j = t
  · rw [h0, h.start.1] at hc
    simp at hc
  by_cases h1 : j ≤ ta
  · rw [(h.recv_addr hs (by omega) h1).state] at hc
    simp at hc
  by_cases h2 : j ≤ tw
  · rw [(h.recv_data hs (by omega) h2).1.state] at hc
    simp at hc
  by_cases h3 : j = tw + 2
  · rw [h3, h.wait_done hs] at hc
    simp at hc
  · rw [(h.resp hs (by omega) hjb).1] at hc
    simp at hc

/-- A transaction is answered as the address map says. -/
theorem WriteTransaction.bresp :
    ((e.states tb).s_axi.bresp = AXI_RESP_OKAY ↔
      okay_write (e.labels ta).s_axi.awaddr (e.labels tw).s_axi.wstrb) ∧
    ((e.states tb).s_axi.bresp = AXI_RESP_SLVERR ↔
      ¬ okay_write (e.labels ta).s_axi.awaddr (e.labels tw).s_axi.wstrb) := by
  obtain ⟨hP, haddr, -, hstrb⟩ := h.issue hs
  have hlate := h.answer_after hs
  obtain ⟨hst, hop, -⟩ := h.resp hs hlate (Nat.le_refl tb)
  have hverdict := @issue_op_successful _ _ (e.labels (tw + 1)) (e.labels (tw + 2)) hP.state
    haddr hP.cav
  rw [← hs (tw + 1), ← hs (tw + 2), ← hop, hstrb] at hverdict
  rw [← hverdict]
  cases hb : (e.states tb).op_successful <;> simp [s_axi, hst, hb]

/-- The module is free again after the answer. -/
theorem WriteTransaction.idle_after : (e.states (tb + 1)).state = .idle := by
  obtain ⟨hst, -, -⟩ := h.resp hs (h.answer_after hs) (Nat.le_refl tb)
  have hready : (e.labels tb).s_axi.bready = true := by
    simpa [b_handshake, s_axi, hst] using h.answer.2.1
  rw [hs tb, (next_of_write_resp _ hst).1, hready]
  rfl

/-- The stall before, during and after a transaction. -/
theorem WriteTransaction.stall_before {j : Nat} (hj : t ≤ j) (hjw : j ≤ tw + 1) :
    (e.states j).pc_stall = (e.states t).pc_stall := by
  by_cases h0 : j = t
  · rw [h0]
  by_cases h1 : j ≤ ta
  · exact (h.recv_addr hs (by omega) h1).stall
  by_cases h2 : j ≤ tw
  · exact (h.recv_data hs (by omega) h2).1.stall
  · have h3 : j = tw + 1 := by omega
    rw [h3]
    exact (h.issue hs).1.stall

theorem WriteTransaction.stall_issued :
    (e.states (tw + 2)).pc_stall =
      if selector (e.labels ta).s_axi.awaddr = SUB_SEL_CTRL then
        if window_offset (e.labels ta).s_axi.awaddr = CTRL_REG_START then false
        else if window_offset (e.labels ta).s_axi.awaddr = CTRL_REG_STOP then true
        else if window_offset (e.labels ta).s_axi.awaddr = CTRL_REG_STEP then false
        else (e.states t).pc_stall
      else (e.states t).pc_stall := by
  obtain ⟨hP, haddr, -, -⟩ := h.issue hs
  rw [hs (tw + 1), issue_pc_stall hP.state haddr, hP.stall]

theorem WriteTransaction.stall_after {j : Nat} (hj : tw + 3 ≤ j) (hjb : j ≤ tb + 1) :
    (e.states j).pc_stall =
      issued_stall (e.states t).pc_stall (e.labels ta).s_axi.awaddr := by
  obtain ⟨hP, haddr, -, -⟩ := h.issue hs
  have hfirst : (e.states (tw + 3)).pc_stall =
      issued_stall (e.states t).pc_stall (e.labels ta).s_axi.awaddr := by
    rw [hs (tw + 2), hs (tw + 1), wait_done_pc_stall hP.state haddr, hP.stall]
  have hlate := h.answer_after hs
  by_cases hlast : j = tb + 1
  · obtain ⟨hst, -, hstall⟩ := h.resp hs hlate (Nat.le_refl tb)
    rw [hlast, hs tb, (next_of_write_resp _ hst).2.2, hstall, hfirst]
  · rw [(h.resp hs hj (by omega)).2.2, hfirst]

/-- The stall during a write, if it is not released by it. -/
theorem WriteTransaction.stall_kept
    (hstall : issued_stall (e.states t).pc_stall (e.labels ta).s_axi.awaddr =
      (e.states t).pc_stall)
    (hstep : ¬ (selector (e.labels ta).s_axi.awaddr = SUB_SEL_CTRL ∧
      window_offset (e.labels ta).s_axi.awaddr = CTRL_REG_STEP))
    {j : Nat} (hj : t ≤ j) (hjb : j ≤ tb + 1) : (e.states j).pc_stall = (e.states t).pc_stall := by
  by_cases h1 : j ≤ tw + 1
  · exact h.stall_before hs hj h1
  by_cases h2 : j = tw + 2
  · -- the one cycle in which a STEP would be seen
    subst h2
    have hissued := h.stall_issued hs
    unfold issued_stall at hstall
    rw [hissued]
    by_cases hc : selector (e.labels ta).s_axi.awaddr = SUB_SEL_CTRL
    · rw [if_pos hc] at hstall ⊢
      rw [if_neg (fun hoff => hstep ⟨hc, hoff⟩)] at hstall ⊢
      exact hstall
    · rw [if_neg hc]
  · rw [h.stall_after hs (by omega) hjb, hstall]

omit h in
/-- A write of a master with any delays of its own is answered: the module
    waits for the address, for the data, and with the answer. -/
theorem WriteTransaction.of_master
    (hstart : (e.states t).state = .idle ∧ (e.labels t).s_axi.arvalid = false ∧
      (e.labels t).s_axi.awvalid = true)
    (haddr : t < ta ∧ (e.labels ta).s_axi.awvalid = true ∧
      ∀ j, t < j → j < ta → (e.labels j).s_axi.awvalid = false)
    (hdata : ta < tw ∧ (e.labels tw).s_axi.wvalid = true ∧
      ∀ j, ta < j → j < tw → (e.labels j).s_axi.wvalid = false)
    (hready : tw + 3 ≤ tb ∧ (e.labels tb).s_axi.bready = true) :
    ∃ tb', WriteTransaction e t ta tw tb' := by
  obtain ⟨hta, hav, hanone⟩ := haddr
  obtain ⟨htw, hwv, hwnone⟩ := hdata
  -- the states of the transaction, one after the other
  have hrecv_addr : ∀ j, t < j → j ≤ ta → (e.states j).state = .write_recv_addr := by
    intro j hj hja
    refine Lts.stretch_induction (j := t + 1)
      (P := fun j => (e.states j).state = .write_recv_addr) hj ?_ ?_
    · rw [hs t]
      exact (next_of_write_request _ hstart.1 hstart.2.1 hstart.2.2).1
    · intro k hk hkj hst
      rw [hs k, (next_of_recv_addr _ hst).1, hanone k hk (by omega)]
      rfl
  have hrecv_data : ∀ j, ta < j → j ≤ tw → (e.states j).state = .write_recv_data := by
    intro j hj hjw
    refine Lts.stretch_induction (j := ta + 1)
      (P := fun j => (e.states j).state = .write_recv_data) hj ?_ ?_
    · rw [hs ta, (next_of_recv_addr _ (hrecv_addr ta hta (Nat.le_refl _))).1, hav]
      rfl
    · intro k hk hkj hst
      rw [hs k, (next_of_recv_data _ hst).1, hwnone k hk (by omega)]
      rfl
  have hissue : (e.states (tw + 1)).state = .write_issue := by
    rw [hs tw, (next_of_recv_data _ (hrecv_data tw htw (Nat.le_refl _))).1, hwv]
    rfl
  have hdone : (e.states (tw + 2)).state = .write_wait_done := by
    rw [hs (tw + 1)]
    exact (next_of_write_issue _ hissue).1
  have hresp : (e.states (tw + 3)).state = .write_resp := by
    rw [hs (tw + 2)]
    exact next_of_write_wait_done _ hdone
  -- the answer is offered until the master takes it
  obtain ⟨tb', htb, hgo, hst, hfirst⟩ := @Lts.exists_first
    (fun j => (e.states j).state = .write_resp) (fun j => (e.labels j).s_axi.bready = true) _ hresp
    (by
      intro j _ hst hno
      rw [hs j, (next_of_write_resp _ hst).1, if_neg hno])
    (fun _ => ⟨tb, hready⟩)
  refine ⟨tb', hstart, ⟨hta, ?_, ?_⟩, ⟨htw, ?_, ?_⟩, ⟨by omega, ?_, ?_⟩⟩
  · simp [aw_handshake, s_axi, hav, hrecv_addr ta hta (Nat.le_refl _)]
  · intro j hj hja
    simp [aw_handshake, hanone j hj hja]
  · simp [w_handshake, s_axi, hwv, hrecv_data tw htw (Nat.le_refl _)]
  · intro j hj hjw
    simp [w_handshake, hwnone j hj hjw]
  · simp [b_handshake, s_axi, hgo, hst]
  · intro j hj hjb
    by_cases h1 : j = tw + 1
    · simp [b_handshake, s_axi, h1, hissue]
    by_cases h2 : j = tw + 2
    · simp [b_handshake, s_axi, h2, hdone]
    · simp [b_handshake, (hfirst j (by omega) hjb).2]

omit h in
/-- A write of a master without delays takes six cycles. -/
theorem WriteTransaction.of_fast_master {addr data : Word} {strb : BitVec 4}
    (hidle : (e.states t).state = .idle)
    (hm : ∀ j, t ≤ j → j ≤ t + 5 → (e.labels j).s_axi = .writing addr data strb) :
    WriteTransaction e t (t + 1) (t + 2) (t + 5) := by
  have h0 := hm t (Nat.le_refl t) (by omega)
  have h1 := hm (t + 1) (by omega) (by omega)
  have h2 := hm (t + 2) (by omega) (by omega)
  have h5 := hm (t + 5) (by omega) (Nat.le_refl _)
  have hrecv_addr : (e.states (t + 1)).state = .write_recv_addr := by
    rw [hs t]
    exact (next_of_write_request _ hidle (by rw [h0]; rfl) (by rw [h0]; rfl)).1
  have hrecv_data : (e.states (t + 2)).state = .write_recv_data := by
    rw [hs (t + 1), (next_of_recv_addr _ hrecv_addr).1, h1]
    rfl
  have hissue : (e.states (t + 3)).state = .write_issue := by
    rw [hs (t + 2), (next_of_recv_data _ hrecv_data).1, h2]
    rfl
  have hdone : (e.states (t + 4)).state = .write_wait_done := by
    rw [hs (t + 3)]
    exact (next_of_write_issue _ hissue).1
  have hresp : (e.states (t + 5)).state = .write_resp := by
    rw [hs (t + 4)]
    exact next_of_write_wait_done _ hdone
  refine ⟨⟨hidle, by rw [h0]; rfl, by rw [h0]; rfl⟩, ⟨by omega, ?_, ?_⟩, ⟨by omega, ?_, ?_⟩,
    ⟨by omega, ?_, ?_⟩⟩
  · rw [h1]
    simp [aw_handshake, s_axi, hrecv_addr, Master.writing]
  · intro j hj hja
    omega
  · rw [h2]
    simp [w_handshake, s_axi, hrecv_data, Master.writing]
  · intro j hj hjw
    omega
  · rw [h5]
    simp [b_handshake, s_axi, hresp, Master.writing]
  · intro j hj hjb
    have hcases : j = t + 3 ∨ j = t + 4 := by omega
    rcases hcases with rfl | rfl
    · simp [b_handshake, s_axi, hissue]
    · simp [b_handshake, s_axi, hdone]

end write

/-! ### Read transactions -/

section read_edges
variable {c : SocControl} {addr : Word} (i : Input)

/-- The value of a control register, sampled in READ_ISSUE. -/
def control_value (c : SocControl) (i : Input) (offset : BitVec 12) : Word :=
  if offset = CTRL_REG_STATUS then 0#31 ++ BitVec.ofBool c.pc_stall
  else if offset = CTRL_REG_PC then i.pc_read_data
  else if offset = CTRL_REG_DBG_VECTOR then i.core_debug_vector
  else 0#32

/-- The control registers whose reads the module answers. START and STOP are
    not among them: the case item that joins them with STEP matches STEP
    only. -/
def is_control_answered (offset : BitVec 12) : Prop :=
  offset = CTRL_REG_STATUS ∨ offset = CTRL_REG_STEP ∨ offset = CTRL_REG_PC ∨
    offset = CTRL_REG_DBG_VECTOR

theorem joined_item : CTRL_REG_START ||| CTRL_REG_STOP ||| CTRL_REG_STEP = CTRL_REG_STEP := by
  decide

theorem next_of_read_issue (h : c.state = .read_issue)
    (ha : c.latched_address = addr.extractLsb' 0 16) (hcav : c.control_address_valid = false) :
    (c.next i).state = .read_wait_done ∧
      (c.next i).latched_address = addr.extractLsb' 0 16 ∧
      ((c.next i).control_address_valid = true ↔
        selector addr = SUB_SEL_CTRL ∧ is_control_answered (window_offset addr)) ∧
      (selector addr = SUB_SEL_CTRL →
        (c.next i).control_read_data = control_value c i (window_offset addr)) := by
  have hsel := sub_selector_eq ha
  have hsub := sub_addr_eq ha
  refine ⟨by simp [next, next_state, h], by simp [next, latched_address', h, ha], ?_, ?_⟩
  · show c.control_address_valid' = true ↔ _
    simp only [control_address_valid', h, control_selected, hsel, hsub, beq_iff_eq, hcav,
      joined_item, is_control_answered]
    repeat' split
    all_goals simp_all
  · intro hctrl
    show c.control_read_data' i = _
    simp only [control_read_data', h, control_selected, hsel, hsub, beq_iff_eq, hctrl, joined_item,
      control_value, if_true]
    by_cases hstep : window_offset addr = CTRL_REG_STEP
    · rw [hstep]
      rfl
    · rw [if_neg hstep]

/-- A register read presents its number to the register file in READ_ISSUE. -/
theorem read_issue_regfile_addr (h : c.state = .read_issue)
    (ha : c.latched_address = addr.extractLsb' 0 16) (hsel : selector addr = SUB_SEL_REGFILE)
    {r : BitVec 5} (hr : window_offset addr = register_offset r) : c.regfile_addr = r := by
  have hv : c.regfile_read_valid = true := (regfile_read_valid_iff ha).mpr ⟨hsel, r, hr⟩
  have hfield : c.regfile_sub_addr = r := by
    unfold regfile_sub_addr
    rw [sub_addr_eq ha, hr, register_offset_field]
  unfold regfile_addr
  rw [h]
  exact (if_pos hv).trans hfield

theorem next_of_read_wait_done (h : c.state = .read_wait_done) :
    (c.next i).state = .read_resp ∧ (c.next i).op_successful = c.op_successful' ∧
      (c.next i).read_data = c.read_data' i := by
  have hdone : c.op_done = true := by simp [op_done, h]
  refine ⟨?_, rfl, rfl⟩
  show c.next_state i = _
  unfold next_state
  rw [h]
  exact if_pos hdone

theorem next_of_read_resp (h : c.state = .read_resp) :
    (c.next i).state = (if i.s_axi.rready then .idle else .read_resp) ∧
      (c.next i).op_successful = c.op_successful ∧ (c.next i).read_data = c.read_data := by
  simp [next, next_state, op_successful', read_data', op_done, h]

theorem is_control_answered_aligned {offset : BitVec 12} (h : is_control_answered offset) :
    offset.extractLsb' 0 2 = 0b00#2 := by
  rcases h with rfl | rfl | rfl | rfl <;> decide

end read_edges

section read
variable (e : Lts.Execution SocControl Input)

/-- A read on the control port: the address is transferred in cycle `ta`, the
    answer in `tr`. -/
structure ReadTransaction (ta tr : Nat) : Prop where
  address : ar_handshake (e.labels ta).s_axi (e.states ta).s_axi = true
  answer : ta < tr ∧ r_handshake (e.labels tr).s_axi (e.states tr).s_axi = true ∧
    ∀ j, ta < j → j < tr → r_handshake (e.labels j).s_axi (e.states j).s_axi = false

variable {e} {ta tr : Nat} (hs : ∀ k, e.states (k + 1) = (e.states k).next (e.labels k))
include hs

/-- The read is issued one cycle after its address was transferred. -/
theorem read_issue_after
    (h : ar_handshake (e.labels ta).s_axi (e.states ta).s_axi = true) :
    (e.states (ta + 1)).state = .read_issue ∧
      (e.states (ta + 1)).control_address_valid = false ∧
      (e.states (ta + 1)).latched_address = (e.labels ta).s_axi.araddr.extractLsb' 0 16 := by
  have hv : (e.labels ta).s_axi.arvalid = true ∧ (e.states ta).state = .idle := by
    simpa [ar_handshake, s_axi] using h
  rw [hs ta]
  exact next_of_read_request _ hv.2 hv.1

variable (h : ReadTransaction e ta tr)
include h

theorem ReadTransaction.wait_done :
    (e.states (ta + 2)).state = .read_wait_done ∧
      (e.states (ta + 2)).latched_address = (e.labels ta).s_axi.araddr.extractLsb' 0 16 ∧
      ((e.states (ta + 2)).control_address_valid = true ↔
        selector (e.labels ta).s_axi.araddr = SUB_SEL_CTRL ∧
          is_control_answered (window_offset (e.labels ta).s_axi.araddr)) ∧
      (selector (e.labels ta).s_axi.araddr = SUB_SEL_CTRL →
        (e.states (ta + 2)).control_read_data =
          control_value (e.states (ta + 1)) (e.labels (ta + 1))
            (window_offset (e.labels ta).s_axi.araddr)) := by
  obtain ⟨hst, hcav, haddr⟩ := read_issue_after hs h.address
  rw [hs (ta + 1)]
  exact next_of_read_issue _ hst haddr hcav

/-- The answer is offered from the third cycle after the address on. -/
theorem ReadTransaction.answer_after : ta + 3 ≤ tr := by
  obtain ⟨hst, -, -⟩ := read_issue_after hs h.address
  obtain ⟨hd, -, -, -⟩ := h.wait_done hs
  have hr := h.answer.2.1
  have hlt := h.answer.1
  by_contra hc
  -- RVALID is low in READ_ISSUE and in READ_WAIT_DONE
  have hcases : tr = ta + 1 ∨ tr = ta + 2 := by omega
  rcases hcases with rfl | rfl
  · simp [r_handshake, s_axi, hst] at hr
  · simp [r_handshake, s_axi, hd] at hr

theorem ReadTransaction.resp {j : Nat} (hj : ta + 3 ≤ j) (hjr : j ≤ tr) :
    (e.states j).state = .read_resp ∧
      (e.states j).op_successful = (e.states (ta + 2)).op_successful' ∧
      (e.states j).read_data = (e.states (ta + 2)).read_data' (e.labels (ta + 2)) := by
  refine Lts.stretch_induction (j := ta + 3) (P := fun j => (e.states j).state = .read_resp ∧
      (e.states j).op_successful = (e.states (ta + 2)).op_successful' ∧
      (e.states j).read_data = (e.states (ta + 2)).read_data' (e.labels (ta + 2))) hj ?_ ?_
  · rw [hs (ta + 2)]
    exact next_of_read_wait_done _ (h.wait_done hs).1
  · intro k hk hkj hprev
    obtain ⟨hst, hop, hdata⟩ := hprev
    have hno := h.answer.2.2 k (by omega) (by omega)
    have hv : (e.labels k).s_axi.rready = false := by
      simpa [r_handshake, s_axi, hst] using hno
    obtain ⟨h1, h2, h3⟩ := next_of_read_resp (e.labels k) hst
    rw [← hs k, hv] at h1
    rw [← hs k] at h2 h3
    exact ⟨h1, h2.trans hop, h3.trans hdata⟩

/-- The reads the module answers. -/
def answered_read (addr : Word) : Prop :=
  (selector addr = SUB_SEL_CTRL ∧ is_control_answered (window_offset addr)) ∨
  (selector addr = SUB_SEL_REGFILE ∧ ∃ r, window_offset addr = register_offset r)

theorem ReadTransaction.op_successful :
    (e.states (ta + 2)).op_successful' = true ↔ answered_read (e.labels ta).s_axi.araddr := by
  obtain ⟨hst, haddr, hcav, -⟩ := h.wait_done hs
  -- what follows is about the state in READ_WAIT_DONE alone
  generalize e.states (ta + 2) = c at *
  generalize (e.labels ta).s_axi.araddr = addr at *
  have hsel := sub_selector_eq haddr
  have hsub := sub_addr_eq haddr
  have hreg := regfile_read_valid_iff haddr
  have hdone : c.op_done = true := by simp [op_done, hst]
  unfold op_successful'
  rw [if_pos hdone, hsel, answered_read]
  by_cases hctrl : selector addr = SUB_SEL_CTRL
  · rw [if_pos hctrl]
    simp only [control_op_successful, hst, control_read_valid, control_selected, sub_addr_aligned,
      hsel, hsub, Bool.and_eq_true, beq_iff_eq, hcav, hctrl]
    constructor
    · rintro ⟨⟨_, _, hr⟩, _⟩
      exact Or.inl ⟨trivial, hr⟩
    · rintro (⟨-, hr⟩ | ⟨hr, -⟩)
      · exact ⟨⟨trivial, trivial, hr⟩, is_control_answered_aligned hr⟩
      · simp at hr
  rw [if_neg hctrl]
  by_cases hrf : selector addr = SUB_SEL_REGFILE
  · have hop : c.regfile_op_successful = c.regfile_read_valid := by
      simp only [regfile_op_successful, hst, regfile_selected, hsel, hrf, beq_self_eq_true, if_true]
    rw [if_pos hrf, hop, hreg]
    constructor
    · exact Or.inr
    · rintro (⟨hc, -⟩ | hr)
      · exact absurd hc hctrl
      · exact hr
  rw [if_neg hrf]
  constructor
  · -- the fault window and the unknown ones have nothing to read
    intro hc
    by_cases hft : selector addr = SUB_SEL_FAULT
    · simp [hft, fault_op_successful, fault_selected, hsel, hst] at hc
    · rw [if_neg hft] at hc
      simp at hc
  · rintro (⟨hc, -⟩ | ⟨hr, -⟩)
    · exact absurd hc hctrl
    · exact absurd hr hrf

/-- The value of a read: sampled in READ_ISSUE from the control registers,
    in the cycle after it from the registered port of the register file. -/
def read_value (e : Lts.Execution SocControl Input) (ta : Nat) : Word :=
  if selector (e.labels ta).s_axi.araddr = SUB_SEL_CTRL then
    control_value (e.states (ta + 1)) (e.labels (ta + 1))
      (window_offset (e.labels ta).s_axi.araddr)
  else (e.labels (ta + 2)).regfile_read_data

/-- The answer of a read. -/
theorem ReadTransaction.answered :
    ((e.states tr).s_axi.rresp = AXI_RESP_OKAY ↔ answered_read (e.labels ta).s_axi.araddr) ∧
    ((e.states tr).s_axi.rresp = AXI_RESP_SLVERR ↔
      ¬ answered_read (e.labels ta).s_axi.araddr) ∧
    (answered_read (e.labels ta).s_axi.araddr → (e.states tr).s_axi.rdata = read_value e ta) ∧
    (¬ answered_read (e.labels ta).s_axi.araddr → (e.states tr).s_axi.rdata = 0#32) := by
  have hlate := h.answer_after hs
  obtain ⟨hst, hop, hdata⟩ := h.resp hs hlate (Nat.le_refl tr)
  have hok := h.op_successful hs
  rw [← hok, ← hop]
  refine ⟨?_, ?_, ?_, ?_⟩
  · cases hb : (e.states tr).op_successful <;> simp [s_axi, hst, hb]
  · cases hb : (e.states tr).op_successful <;> simp [s_axi, hst, hb]
  · intro hb
    have hans := hok.mp (hop.symm.trans hb)
    obtain ⟨hwd, haddr, -, hctrl⟩ := h.wait_done hs
    have hdone : (e.states (ta + 2)).op_done = true := by simp [op_done, hwd]
    have hrd : (e.states tr).s_axi.rdata = (e.states tr).read_data := by
      simp [s_axi, hst, hb]
    rw [hrd, hdata, read_data', if_pos hdone, sub_selector_eq haddr, read_value]
    rcases hans with ⟨hc, -⟩ | ⟨hr, -⟩
    · rw [if_pos hc, if_pos hc, hctrl hc]
    · rw [hr]
      rfl
  · intro hb
    have hb' : (e.states tr).op_successful = false := Bool.eq_false_of_not_eq_true hb
    simp [s_axi, hst, hb']

/-- A read writes nothing and leaves the stall alone. -/
theorem ReadTransaction.no_write {j : Nat} (hj : ta ≤ j) (hjr : j ≤ tr) :
    (e.states j).state ≠ .write_issue ∧ (e.states j).state ≠ .write_wait_done := by
  have hidle : (e.states ta).state = .idle := by
    have hv : (e.labels ta).s_axi.arvalid = true ∧ (e.states ta).state = .idle := by
      simpa [ar_handshake, s_axi] using h.address
    exact hv.2
  by_cases h0 : j = ta
  · rw [h0, hidle]
    decide
  by_cases h1 : j = ta + 1
  · rw [h1, (read_issue_after hs h.address).1]
    decide
  by_cases h2 : j = ta + 2
  · rw [h2, (h.wait_done hs).1]
    decide
  · rw [(h.resp hs (by omega) hjr).1]
    decide

/-- The stall is the same in every cycle of a read. -/
theorem ReadTransaction.stall_kept {j : Nat} (hj : ta ≤ j) (hjr : j ≤ tr + 1) :
    (e.states j).pc_stall = (e.states ta).pc_stall := by
  refine Lts.stretch_induction (P := fun j => (e.states j).pc_stall = (e.states ta).pc_stall)
    hj rfl ?_
  intro k hk hkj heq
  obtain ⟨hissue, hdone⟩ := h.no_write hs hk (by omega)
  rw [hs k, pc_stall_next _ hissue hdone, heq]

/-- The module is free again after the answer. -/
theorem ReadTransaction.idle_after : (e.states (tr + 1)).state = .idle := by
  obtain ⟨hst, -, -⟩ := h.resp hs (h.answer_after hs) (Nat.le_refl tr)
  have hready : (e.labels tr).s_axi.rready = true := by
    simpa [r_handshake, s_axi, hst] using h.answer.2.1
  rw [hs tr, (next_of_read_resp _ hst).1, hready]
  rfl

omit h in
/-- A read of a master with any delays of its own is answered. -/
theorem ReadTransaction.of_master
    (hstart : (e.states ta).state = .idle ∧ (e.labels ta).s_axi.arvalid = true)
    (hready : ta + 3 ≤ tr ∧ (e.labels tr).s_axi.rready = true) :
    ∃ tr', ReadTransaction e ta tr' := by
  have haddr : ar_handshake (e.labels ta).s_axi (e.states ta).s_axi = true := by
    simp [ar_handshake, s_axi, hstart.1, hstart.2]
  obtain ⟨hissue, hcav, hlatched⟩ := read_issue_after hs haddr
  have hdone : (e.states (ta + 2)).state = .read_wait_done := by
    rw [hs (ta + 1)]
    exact (next_of_read_issue _ hissue hlatched hcav).1
  have hresp : (e.states (ta + 3)).state = .read_resp := by
    rw [hs (ta + 2)]
    exact (next_of_read_wait_done _ hdone).1
  -- the answer is offered until the master takes it
  obtain ⟨tr', htr, hgo, hst, hfirst⟩ := @Lts.exists_first
    (fun j => (e.states j).state = .read_resp) (fun j => (e.labels j).s_axi.rready = true) _ hresp
    (by
      intro j _ hst hno
      rw [hs j, (next_of_read_resp _ hst).1, if_neg hno])
    (fun _ => ⟨tr, hready⟩)
  refine ⟨tr', haddr, by omega, ?_, ?_⟩
  · simp [r_handshake, s_axi, hgo, hst]
  · intro j hj hjr
    by_cases h1 : j = ta + 1
    · simp [r_handshake, s_axi, h1, hissue]
    by_cases h2 : j = ta + 2
    · simp [r_handshake, s_axi, h2, hdone]
    · simp [r_handshake, (hfirst j (by omega) hjr).2]

omit h in
/-- A read of a master without delays takes four cycles. -/
theorem ReadTransaction.of_fast_master {addr : Word} (hidle : (e.states ta).state = .idle)
    (hm : ∀ j, ta ≤ j → j ≤ ta + 3 → (e.labels j).s_axi = .reading addr) :
    ReadTransaction e ta (ta + 3) := by
  have h0 := hm ta (Nat.le_refl ta) (by omega)
  have h3 := hm (ta + 3) (by omega) (Nat.le_refl _)
  have haddr : ar_handshake (e.labels ta).s_axi (e.states ta).s_axi = true := by
    rw [h0]
    simp [ar_handshake, s_axi, hidle, Master.reading]
  obtain ⟨hissue, hcav, hlatched⟩ := read_issue_after hs haddr
  have hdone : (e.states (ta + 2)).state = .read_wait_done := by
    rw [hs (ta + 1)]
    exact (next_of_read_issue _ hissue hlatched hcav).1
  have hresp : (e.states (ta + 3)).state = .read_resp := by
    rw [hs (ta + 2)]
    exact (next_of_read_wait_done _ hdone).1
  refine ⟨haddr, by omega, ?_, ?_⟩
  · rw [h3]
    simp [r_handshake, s_axi, hresp, Master.reading]
  · intro j hj hjr
    have hcases : j = ta + 1 ∨ j = ta + 2 := by omega
    rcases hcases with rfl | rfl
    · simp [r_handshake, s_axi, hissue]
    · simp [r_handshake, s_axi, hdone]

end read

end SocControl

end RiscvWorker
