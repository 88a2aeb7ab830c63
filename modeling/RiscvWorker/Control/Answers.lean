import RiscvWorker.Control.Transactions

/-! # The answers of the control module against its address map

  A rejected write should leave no trace, and a read should be answered
  exactly where the map has a register. Both hold except for one kind of
  request each, and the theorems say which: a write to a control register
  with a partial strobe is carried out and then rejected, and reads of START
  and STOP are rejected although they are mapped.
-/

namespace RiscvWorker

open AxiLite (Master Slave aw_handshake w_handshake b_handshake ar_handshake r_handshake)

namespace SocControl

variable {e : Lts.Execution SocControl Input}

/-! ### Writes -/

/-- Nothing is written in the cycles `t` to `tb`, the stall is afterwards what
    it was, and it is not released in between. -/
structure NoEffect (e : Lts.Execution SocControl Input) (t tb : Nat) : Prop where
  enables : ∀ j, t ≤ j → j ≤ tb →
    (e.states j).regfile_write_enable = false ∧ (e.states j).regfile_fault_enable = false ∧
      (e.states j).pc_write_enable = false
  stall_after : (e.states (tb + 1)).pc_stall = (e.states t).pc_stall
  no_release : (e.states t).pc_stall = true →
    ∀ j, t ≤ j → j ≤ tb → (e.states j).pc_stall = true

/-- A rejected write has no effect, and a write is accepted exactly where the
    map allows it. -/
def WritePromise (e : Lts.Execution SocControl Input) (t ta tw tb : Nat) : Prop :=
  ((e.states tb).s_axi.bresp = AXI_RESP_SLVERR → NoEffect e t tb) ∧
  ((e.states tb).s_axi.bresp = AXI_RESP_OKAY ↔
    okay_write (e.labels ta).s_axi.awaddr (e.labels tw).s_axi.wstrb)

/-- A write with a partial strobe to a control register where it matters: to
    the PC, to STEP, to START while stalled or to STOP while not. -/
def partial_control_write (stall : Bool) (addr : Word) (strb : BitVec 4) : Prop :=
  selector addr = SUB_SEL_CTRL ∧ strb ≠ 0b1111#4 ∧
    (window_offset addr = CTRL_REG_PC ∨ window_offset addr = CTRL_REG_STEP ∨
      (window_offset addr = CTRL_REG_START ∧ stall = true) ∨
      (window_offset addr = CTRL_REG_STOP ∧ stall = false))

section writes
variable {t ta tw tb : Nat} (hs : ∀ k, e.states (k + 1) = (e.states k).next (e.labels k))
  (h : WriteTransaction e t ta tw tb)
include hs h

/-- The enables of a rejected write are low, unless it is a PC write. -/
theorem rejected_enables
    (hrej : ¬ okay_write (e.labels ta).s_axi.awaddr (e.labels tw).s_axi.wstrb)
    (hpc : ¬ (selector (e.labels ta).s_axi.awaddr = SUB_SEL_CTRL ∧
      window_offset (e.labels ta).s_axi.awaddr = CTRL_REG_PC))
    {j : Nat} (hj : t ≤ j) (hjb : j ≤ tb) :
    (e.states j).regfile_write_enable = false ∧ (e.states j).regfile_fault_enable = false ∧
      (e.states j).pc_write_enable = false := by
  -- only WRITE_ISSUE can raise an enable, and there it follows the map
  by_cases hne : j = tw + 1
  · subst hne
    obtain ⟨hP, haddr, -, hstrb⟩ := h.issue hs
    have hreg := issue_regfile_write_enable hP.state haddr
    have hfault := issue_regfile_fault_enable hP.state haddr
    have hpcw := issue_pc_write_enable hP.state haddr
    rw [hstrb] at hreg hfault
    refine ⟨?_, ?_, ?_⟩
    · apply Bool.eq_false_of_not_eq_true
      intro hc
      obtain ⟨hfull, hr⟩ := hreg.mp hc
      exact hrej ⟨hfull, Or.inr (Or.inl hr)⟩
    · apply Bool.eq_false_of_not_eq_true
      intro hc
      obtain ⟨hfull, hr⟩ := hfault.mp hc
      exact hrej ⟨hfull, Or.inr (Or.inr hr)⟩
    · apply Bool.eq_false_of_not_eq_true
      intro hc
      exact hpc (hpcw.mp hc)
  · exact enables_low (h.not_issue hs hj hjb hne)

/-- The exact condition under which a write keeps the promise of the map. -/
theorem write_promise_of_not_partial
    (hno : ¬ partial_control_write (e.states t).pc_stall (e.labels ta).s_axi.awaddr
      (e.labels tw).s_axi.wstrb) : WritePromise e t ta tw tb := by
  obtain ⟨hokay, hslverr⟩ := h.bresp hs
  refine ⟨?_, hokay⟩
  intro hresp
  have hrej := hslverr.mp hresp
  -- a rejected write to one of the four control registers has a partial strobe
  have hpartial : ∀ offset, is_control_write offset →
      selector (e.labels ta).s_axi.awaddr = SUB_SEL_CTRL →
      window_offset (e.labels ta).s_axi.awaddr = offset →
      (e.labels tw).s_axi.wstrb ≠ 0b1111#4 := by
    intro offset hoff hsel hwin hfull
    exact hrej ⟨hfull, Or.inl ⟨hsel, hwin ▸ hoff⟩⟩
  have hpc : ¬ (selector (e.labels ta).s_axi.awaddr = SUB_SEL_CTRL ∧
      window_offset (e.labels ta).s_axi.awaddr = CTRL_REG_PC) := by
    intro ⟨hsel, hwin⟩
    have hne := hpartial _ (Or.inr (Or.inr (Or.inr rfl))) hsel hwin
    exact hno ⟨hsel, hne, Or.inl hwin⟩
  have hstep : ¬ (selector (e.labels ta).s_axi.awaddr = SUB_SEL_CTRL ∧
      window_offset (e.labels ta).s_axi.awaddr = CTRL_REG_STEP) := by
    intro ⟨hsel, hwin⟩
    have hne := hpartial _ (Or.inr (Or.inr (Or.inl rfl))) hsel hwin
    exact hno ⟨hsel, hne, Or.inr (Or.inl hwin)⟩
  -- what is left of START and STOP repeats the stall that was there
  have hstall : issued_stall (e.states t).pc_stall (e.labels ta).s_axi.awaddr =
      (e.states t).pc_stall := by
    unfold issued_stall
    by_cases hsel : selector (e.labels ta).s_axi.awaddr = SUB_SEL_CTRL
    · rw [if_pos hsel]
      by_cases hstart : window_offset (e.labels ta).s_axi.awaddr = CTRL_REG_START
      · have hne := hpartial _ (Or.inl rfl) hsel hstart
        rw [if_pos hstart]
        cases hst : (e.states t).pc_stall with
        | true => exact absurd ⟨hsel, hne, Or.inr (Or.inr (Or.inl ⟨hstart, hst⟩))⟩ hno
        | false => rfl
      rw [if_neg hstart]
      by_cases hstop : window_offset (e.labels ta).s_axi.awaddr = CTRL_REG_STOP
      · have hne := hpartial _ (Or.inr (Or.inl rfl)) hsel hstop
        rw [if_pos hstop]
        cases hst : (e.states t).pc_stall with
        | true => rfl
        | false => exact absurd ⟨hsel, hne, Or.inr (Or.inr (Or.inr ⟨hstop, hst⟩))⟩ hno
      rw [if_neg hstop, if_neg (fun hwin => hstep ⟨hsel, hwin⟩)]
    · rw [if_neg hsel]
  have hlate := h.answer_after hs
  refine ⟨fun j hj hjb => rejected_enables hs h hrej hpc hj hjb, ?_, ?_⟩
  · exact h.stall_kept hs hstall hstep (by have := h.data.1; have := h.address.1; omega)
      (Nat.le_refl _)
  · intro hst j hj hjb
    rw [h.stall_kept hs hstall hstep hj (by omega), hst]

/-- A partial write to a control register breaks the promise. -/
theorem partial_breaks_promise
    (hp : partial_control_write (e.states t).pc_stall (e.labels ta).s_axi.awaddr
      (e.labels tw).s_axi.wstrb) : ¬ WritePromise e t ta tw tb := by
  intro ⟨heffect, _⟩
  obtain ⟨hsel, hpartial, hoff⟩ := hp
  obtain ⟨-, hslverr⟩ := h.bresp hs
  have hnone := heffect (hslverr.mpr (fun hok => hpartial hok.1))
  have hlate := h.answer_after hs
  have htw := h.data.1
  have hta := h.address.1
  have hafter := h.stall_after hs (j := tb + 1) (by omega) (Nat.le_refl _)
  rw [hnone.stall_after, issued_stall, if_pos hsel] at hafter
  rcases hoff with hpc | hstep | ⟨hstart, hst⟩ | ⟨hstop, hst⟩
  · -- the PC is written in WRITE_ISSUE
    obtain ⟨hP, haddr, -, -⟩ := h.issue hs
    have hwe := (issue_pc_write_enable hP.state haddr).mpr ⟨hsel, hpc⟩
    rw [(hnone.enables (tw + 1) (by omega) (by omega)).2.2] at hwe
    simp at hwe
  · -- STEP lowers the stall for one cycle and leaves it high
    rw [hstep] at hafter
    have hst : (e.states t).pc_stall = true := hafter
    have hlow := hnone.no_release hst (tw + 2) (by omega) (by omega)
    rw [h.stall_issued hs, if_pos hsel, hstep] at hlow
    exact Bool.false_ne_true hlow
  · -- START leaves the stall low, STOP leaves it high
    rw [hstart, hst] at hafter
    simp at hafter
  · rw [hstop, hst] at hafter
    simp at hafter

end writes

/-- A write keeps the promise of the map if and only if it is not a partial
    write to a control register. -/
theorem write_promise_iff (hv : system.valid_exec e) {t ta tw tb : Nat}
    (h : WriteTransaction e t ta tw tb) :
    WritePromise e t ta tw tb ↔
      ¬ partial_control_write (e.states t).pc_stall (e.labels ta).s_axi.awaddr
        (e.labels tw).s_axi.wstrb := by
  constructor
  · intro hpromise hp
    exact partial_breaks_promise hv.2 h hp hpromise
  · exact write_promise_of_not_partial hv.2 h

/-- One cycle of a write. -/
def writer (addr data : Word) (strb : BitVec 4) : Input where
  s_axi := .writing addr data strb
  pc_read_data := 0#32
  regfile_read_data := 0#32
  core_debug_vector := 0#32

/-- One byte of a PC, written after reset. -/
def partial_pc_run : Lts.Execution SocControl Input :=
  .of_inputs next reset fun _ => writer 0x60001010#32 0xABCD#32 0b0001#4

theorem partial_pc_transaction : WriteTransaction partial_pc_run 0 1 2 5 :=
  .of_fast_master (fun _ => rfl) rfl (fun _ _ _ => rfl)

/-- The write is rejected, and the core was told to take it. -/
theorem partial_pc_write_rejected :
    ∃ e : Lts.Execution SocControl Input, system.valid_exec e ∧ WriteTransaction e 0 1 2 5 ∧
      (e.states 5).s_axi.bresp = AXI_RESP_SLVERR ∧ (e.states 3).pc_write_enable = true ∧
      ¬ WritePromise e 0 1 2 5 := by
  refine ⟨partial_pc_run, ⟨rfl, fun _ => rfl⟩, partial_pc_transaction, by decide, by decide, ?_⟩
  intro ⟨heffect, _⟩
  have hlow := ((heffect (by decide)).enables 3 (by decide) (by decide)).2.2
  exact absurd hlow (by decide)

/-- The same run under the exact condition. -/
theorem write_promise_iff_partial_pc : ¬ WritePromise partial_pc_run 0 1 2 5 := by
  have hv : system.valid_exec partial_pc_run := ⟨rfl, fun _ => rfl⟩
  rw [write_promise_iff hv partial_pc_transaction, not_not]
  exact ⟨by decide, by decide, Or.inl (by decide)⟩

/-! ### Reads -/

/-- A read is answered exactly where the map has a register, with the value
    sampled during this transaction, and with zero elsewhere. The register
    file is asked for the register one cycle before its output is sampled. -/
def ReadPromise (e : Lts.Execution SocControl Input) (ta tr : Nat) : Prop :=
  ((e.states tr).s_axi.rresp = AXI_RESP_OKAY ↔ okay_read (e.labels ta).s_axi.araddr) ∧
  ((e.states tr).s_axi.rresp = AXI_RESP_SLVERR ↔ ¬ okay_read (e.labels ta).s_axi.araddr) ∧
  (okay_read (e.labels ta).s_axi.araddr → (e.states tr).s_axi.rdata = read_value e ta) ∧
  (¬ okay_read (e.labels ta).s_axi.araddr → (e.states tr).s_axi.rdata = 0#32) ∧
  (selector (e.labels ta).s_axi.araddr = SUB_SEL_REGFILE →
    ∀ r, window_offset (e.labels ta).s_axi.araddr = register_offset r →
      (e.states (ta + 1)).regfile_addr = r)

/-- START and STOP, which the read decoder does not match. -/
def start_or_stop (addr : Word) : Prop :=
  selector addr = SUB_SEL_CTRL ∧
    (window_offset addr = CTRL_REG_START ∨ window_offset addr = CTRL_REG_STOP)

theorem answered_read_iff (addr : Word) :
    answered_read addr ↔ okay_read addr ∧ ¬ start_or_stop addr := by
  constructor
  · rintro (⟨hsel, hoff⟩ | ⟨hsel, hr⟩)
    · refine ⟨Or.inl ⟨hsel, ?_⟩, ?_⟩
      · rcases hoff with h | h | h | h <;> simp [is_control_read, h]
      · intro hboth
        obtain ⟨_, hss⟩ := hboth
        rcases hoff with h | h | h | h <;> rw [h] at hss <;> exact absurd hss (by decide)
    · refine ⟨Or.inr ⟨hsel, hr⟩, ?_⟩
      intro ⟨hc, _⟩
      rw [hsel] at hc
      simp at hc
  · intro hboth
    obtain ⟨hok, hno⟩ := hboth
    rcases hok with ⟨hsel, hoff⟩ | hr
    · refine Or.inl ⟨hsel, ?_⟩
      -- STATUS, START, STOP, STEP, PC, DBG_VECTOR
      rcases hoff with h | h | h | h | h | h
      · exact Or.inl h
      · exact absurd ⟨hsel, Or.inl h⟩ hno
      · exact absurd ⟨hsel, Or.inr h⟩ hno
      · exact Or.inr (Or.inl h)
      · exact Or.inr (Or.inr (Or.inl h))
      · exact Or.inr (Or.inr (Or.inr h))
    · exact Or.inr hr

/-- A read keeps the promise of the map if and only if it is not one of START
    or STOP. -/
theorem read_promise_iff (hv : system.valid_exec e) {ta tr : Nat}
    (h : ReadTransaction e ta tr) :
    ReadPromise e ta tr ↔ ¬ start_or_stop (e.labels ta).s_axi.araddr := by
  obtain ⟨hokay, hslverr, hdata, hzero⟩ := h.answered hv.2
  constructor
  · intro hboth hss
    obtain ⟨hpromise, _⟩ := hboth
    have hok : okay_read (e.labels ta).s_axi.araddr := by
      obtain ⟨hsel, hoff⟩ := hss
      refine Or.inl ⟨hsel, ?_⟩
      rcases hoff with h | h <;> simp [is_control_read, h]
    have hans := hokay.mp (hpromise.mpr hok)
    exact ((answered_read_iff _).mp hans).2 hss
  · intro hno
    have hsame : answered_read (e.labels ta).s_axi.araddr ↔
        okay_read (e.labels ta).s_axi.araddr := by
      rw [answered_read_iff, and_iff_left hno]
    rw [hsame] at hokay hslverr hdata hzero
    refine ⟨hokay, hslverr, hdata, hzero, ?_⟩
    intro hsel r hr
    obtain ⟨hst, -, haddr⟩ := read_issue_after hv.2 h.address
    exact read_issue_regfile_addr hst haddr hsel hr

/-- One cycle of a read. -/
def reader (addr : Word) : Input where
  s_axi := .reading addr
  pc_read_data := 0#32
  regfile_read_data := 0#32
  core_debug_vector := 0#32

/-- A read of START after reset. -/
def start_read_run : Lts.Execution SocControl Input :=
  .of_inputs next reset fun _ => reader 0x60001004#32

theorem start_read_transaction : ReadTransaction start_read_run 0 3 :=
  .of_fast_master (fun _ => rfl) rfl (fun _ _ _ => rfl)

/-- START is mapped, and its read is rejected. -/
theorem start_read_rejected :
    ∃ e : Lts.Execution SocControl Input, system.valid_exec e ∧ ReadTransaction e 0 3 ∧
      okay_read (e.labels 0).s_axi.araddr ∧ (e.states 3).s_axi.rresp = AXI_RESP_SLVERR ∧
      ¬ ReadPromise e 0 3 := by
  have hok : okay_read (start_read_run.labels 0).s_axi.araddr :=
    Or.inl ⟨by decide, Or.inr (Or.inl (by decide))⟩
  refine ⟨start_read_run, ⟨rfl, fun _ => rfl⟩, start_read_transaction, hok, by decide, ?_⟩
  intro ⟨hpromise, _⟩
  exact absurd (hpromise.mpr hok) (by decide)

/-- The same run under the exact condition. -/
theorem read_promise_iff_start : ¬ ReadPromise start_read_run 0 3 := by
  have hv : system.valid_exec start_read_run := ⟨rfl, fun _ => rfl⟩
  rw [read_promise_iff hv start_read_transaction, not_not]
  exact ⟨by decide, Or.inl (by decide)⟩

end SocControl

end RiscvWorker
