import RiscvWorker.Worker.OnMachine

/-! # The board is a worker

  The firmware sees the hardware through loads, stores and cache flushes.
  `Wired` says how these are wired to the machine: the window of the control
  module leads to the control port, the block RAM is the memory of the core,
  and a flush takes time. A request then has on the worker the effect of its
  `serve`, whatever accesses it takes.
-/

namespace RiscvWorker

open ByteMemory
open AxiLite (MemorySlave)
open Firmware (Board Request World Event apply_fault_mode)
open Rv32i (ArchState)

namespace Machine

/-! ### What the hardware may do -/

/-- Between two accesses: the control port is free, the core and the memory
    are in step, and no instruction is in flight under the stall. -/
structure Settled (s : Machine) : Prop where
  free : s.chip.soc_control.state = .idle
  linked : ∃ p, CoreAndMemory.Linked s.core p
  at_rest : s.chip.soc_control.pc_stall = true → s.chip.cpu.At .waiting

/-- Settled under the stall. -/
structure AtRest (s : Machine) : Prop extends Settled s where
  stalled : s.chip.soc_control.pc_stall = true

/-- An access leads from `s` to `s'` and returns `value`. -/
def Accesses (D : Nat) (a : Firmware.Access) (s : Machine) (value : Option Word) (s' : Machine) :
    Prop :=
  ∃ e tb T, AccessRun D e a tb T ∧ e.states 0 = s ∧ e.states T = s' ∧
    answer_value a (e.states tb) = value

/-- Some cycles without a request lead from `s` to `s'`. -/
def Idles (s s' : Machine) : Prop :=
  ∃ (e : Lts.Execution Machine Input) (T : Nat),
    (∀ k, e.states (k + 1) = (e.states k).next (e.labels k)) ∧
    (∀ j, j < T → (e.labels j).s_axi.arvalid = false ∧ (e.labels j).s_axi.awvalid = false) ∧
    e.states 0 = s ∧ e.states T = s'

/-- Another content of the memory. -/
def with_memory (s : Machine) (M : Memory) : Machine := { s with memory := MemorySlave.idle M }

variable {s s' : Machine} {w : Worker}

theorem Holds.settled (h : Holds s w) : Settled s where
  free := h.free
  linked := by
    obtain ⟨p, hp⟩ := h.core
    exact ⟨p, hp.tracks.linked⟩
  at_rest := by
    intro hst
    obtain ⟨p, hp⟩ := h.core
    have hrun : w.running = false := by
      have hstall := h.stall
      rw [hst] at hstall
      simpa using hstall.symm
    have hat := hp.tracks.at_phase
    rw [hp.halted hrun] at hat
    exact hat

section halted
variable (hrun : w.running = false)
include hrun

theorem Holds.at_rest (h : Holds s w) : AtRest s :=
  ⟨h.settled, by rw [h.stall, hrun]; rfl⟩

/-- A halted worker is the state of the machine. -/
theorem Holds.tracks (h : Holds s w) :
    CoreAndMemory.Tracks s.core .waiting w.state := by
  obtain ⟨p, hp⟩ := h.core
  have htracks := hp.tracks
  rwa [hp.halted hrun] at htracks

theorem Holds.memory (h : Holds s w) : s.memory.mem = w.state.mem := by
  have hidle : s.memory = MemorySlave.idle w.state.mem := (h.tracks hrun).memory
  rw [hidle]
  rfl

/-- A cycle without a request. -/
theorem Holds.idle_cycle (h : Holds s w) {i : Input} (har : i.s_axi.arvalid = false)
    (haw : i.s_axi.awvalid = false) : Holds (s.next i) w := by
  have hst : s.chip.soc_control.pc_stall = true := (h.at_rest hrun).stalled
  have hne : s.chip.soc_control.state ≠ .write_issue := by
    rw [h.free]
    decide
  have hnd : s.chip.soc_control.state ≠ .write_wait_done := by
    rw [h.free]
    decide
  have hkeep := (h.tracks hrun).stutter (i := ⟨s.chip.cm, i.choice⟩)
    (CmAndCore.quiet_of_not_issue hne) (by decide)
  have hphase : Phase.next s.core.cpu.decoded (s.core.cpu_input ⟨s.chip.cm, i.choice⟩)
      .waiting = .waiting := if_pos hst
  rw [hphase] at hkeep
  refine ⟨SocControl.next_of_idle _ h.free har haw, ?_, .waiting, hkeep, fun _ => rfl,
    Worker.sound_of_halted hrun⟩
  rw [← h.stall]
  exact SocControl.pc_stall_next _ hne hnd

theorem Holds.idles (h : Holds s w) (hidles : Idles s s') : Holds s' w := by
  obtain ⟨e, T, hs, hno, rfl, rfl⟩ := hidles
  refine Lts.stretch_induction (P := fun T => Holds (e.states T) w) (Nat.zero_le T) h ?_
  intro j _ hj hh
  obtain ⟨har, haw⟩ := hno j hj
  rw [hs j]
  exact hh.idle_cycle hrun har haw

/-- The memory is changed behind the back of a halted core. -/
theorem Holds.with_memory (h : Holds s w) (M : Memory) :
    Holds (s.with_memory M) { w with state.mem := M } := by
  have htracks := h.tracks hrun
  refine ⟨h.free, h.stall, .waiting, ?_, fun _ => rfl, Worker.sound_of_halted hrun⟩
  exact ⟨htracks.at_phase, htracks.pc, htracks.x, by simp [Phase.is_fetched],
    by simp [Phase.is_executed], rfl⟩

end halted

end Machine

open Machine (Settled AtRest Accesses Idles)

/-! ### The wiring -/

namespace Firmware

variable {H : Type}

/-- An address in the window of the control module. -/
def Board.in_control (b : Board H) (addr : Word) : Prop :=
  (addr - b.XPAR_RISCV_MOD_NAME_BASEADDR).toNat < 0x10000

/-- The board leads to the machine. Between two accesses of the firmware the
    machine has the time to settle; the memory delays nothing for more than
    `D` cycles. Nothing is said about other addresses, nor about the block RAM
    under a running core. -/
structure Wired (D : Nat) (b : Board H) (machine : H → Machine) : Prop where
  /-- The control module is at a multiple of its range. -/
  baseaddr : b.XPAR_RISCV_MOD_NAME_BASEADDR.extractLsb' 0 16 = 0#16
  control_out32 : ∀ h addr data, b.in_control addr → Settled (machine h) →
    Accesses D (.out32 addr data) (machine h) none (machine (b.out32 addr data h))
  control_in32 : ∀ h addr, b.in_control addr → Settled (machine h) →
    Accesses D (.in32 addr) (machine h) (some (b.in32 addr h).1) (machine (b.in32 addr h).2)
  bram_out32 : ∀ h addr data, in_bram b.XPAR_XBRAM_0_BASEADDR addr = true → AtRest (machine h) →
    Idles ((machine h).with_memory (store_word (machine h).memory.mem addr data))
      (machine (b.out32 addr data h))
  bram_in32 : ∀ h addr, in_bram b.XPAR_XBRAM_0_BASEADDR addr = true → AtRest (machine h) →
    (b.in32 addr h).1 = load_word (machine h).memory.mem addr ∧
      Idles (machine h) (machine (b.in32 addr h).2)
  dcache_flush : ∀ h addr len, AtRest (machine h) →
    Idles (machine h) (machine (b.dcache_flush addr len h))

/-- The addresses of the driver lie in the window. -/
theorem in_control_add (b : Board H) {a : Word} (ha : a.toNat < 0x10000) :
    b.in_control (b.XPAR_RISCV_MOD_NAME_BASEADDR + a) := by
  unfold Board.in_control
  rwa [BitVec.add_comm, BitVec.add_sub_cancel]

section wired
variable {D : Nat} {b : Board H} {machine : H → Machine} (hw : Wired D b machine) {h : H}
  {w : Worker}
include hw

/-- The accesses of a request to the control module serve it. -/
theorem Wired.control_out32_serves {r : Request} {addr data : Word}
    (hr : r.control_access b = some (.out32 addr data)) (hin : b.in_control addr)
    (hh : (machine h).Holds w) (hp : Worker.Permits b.XPAR_XBRAM_0_BASEADDR r w) :
    ∃ w', Worker.Serves b.XPAR_XBRAM_0_BASEADDR r w none w' ∧
      (machine (b.out32 addr data h)).Holds w' := by
  obtain ⟨e, tb, T, hrun, h0, hT, hvalue⟩ := hw.control_out32 h addr data hin hh.settled
  rw [← h0] at hh
  obtain ⟨w', hserves, hholds⟩ := hrun.serves hw.baseaddr hr hh hp
  rw [hvalue] at hserves
  rw [hT] at hholds
  exact ⟨w', hserves, hholds⟩

theorem Wired.control_in32_serves {r : Request} {addr : Word}
    (hr : r.control_access b = some (.in32 addr)) (hin : b.in_control addr)
    (hh : (machine h).Holds w) (hp : Worker.Permits b.XPAR_XBRAM_0_BASEADDR r w) :
    ∃ w', Worker.Serves b.XPAR_XBRAM_0_BASEADDR r w (some (b.in32 addr h).1) w' ∧
      (machine (b.in32 addr h).2).Holds w' := by
  obtain ⟨e, tb, T, hrun, h0, hT, hvalue⟩ := hw.control_in32 h addr hin hh.settled
  rw [← h0] at hh
  obtain ⟨w', hserves, hholds⟩ := hrun.serves hw.baseaddr hr hh hp
  rw [hvalue] at hserves
  rw [hT] at hholds
  exact ⟨w', hserves, hholds⟩

/-! ### The block RAM under a halted core -/

variable (hrun : w.running = false)
include hrun

theorem Wired.bram_read {addr : Word}
    (hin : in_bram b.XPAR_XBRAM_0_BASEADDR addr = true) (hh : (machine h).Holds w) :
    (b.in32 addr h).1 = load_word w.state.mem addr ∧ (machine (b.in32 addr h).2).Holds w := by
  obtain ⟨hvalue, hidles⟩ := hw.bram_in32 h addr hin (hh.at_rest hrun)
  rw [hh.memory hrun] at hvalue
  exact ⟨hvalue, hh.idles hrun hidles⟩

theorem Wired.bram_write {addr data : Word}
    (hin : in_bram b.XPAR_XBRAM_0_BASEADDR addr = true) (hh : (machine h).Holds w) {len : Word} :
    (machine (b.dcache_flush addr len (b.out32 addr data h))).Holds
      { w with state.mem := store_word w.state.mem addr data } := by
  have hidles := hw.bram_out32 h addr data hin (hh.at_rest hrun)
  rw [hh.memory hrun] at hidles
  have hrun' : Worker.running { w with state.mem := store_word w.state.mem addr data } = false :=
    hrun
  have hwritten := (hh.with_memory hrun (store_word w.state.mem addr data)).idles hrun' hidles
  exact hwritten.idles hrun' (hw.dcache_flush _ addr len (hwritten.at_rest hrun'))

end wired

/-! ### Requests -/

section requests
variable {D : Nat} {b : Board H} {machine : H → Machine} {h : H} {w : Worker}

/-- The request, as it finds the hardware. -/
theorem Request.hardware_perform (r : Request) (s : World H) :
    (r.perform b s).hardware =
      (r.accesses b s.hardware).foldl (fun h e => e.effect b h) s.hardware := rfl

/-- A request is served by the worker behind the board, whatever accesses it
    takes. -/
theorem Wired.serves (hw : Wired D b machine) {r : Request} (hh : (machine h).Holds w)
    (hp : Worker.Permits b.XPAR_XBRAM_0_BASEADDR r w) :
    ∃ w', Worker.Serves b.XPAR_XBRAM_0_BASEADDR r w (r.value b h) w' ∧
      (machine ((r.accesses b h).foldl (fun h e => e.effect b h) h)).Holds w' := by
  have hcontrol : ∀ reg : Word, (CONTROL_REG_ADDR reg).toNat < 0x10000 →
      b.in_control (b.control reg) := fun reg hreg => in_control_add b hreg
  have hregfile : ∀ reg : BitVec 5, b.in_control (b.regfile reg) := by
    intro reg
    have hsmall : ∀ reg : BitVec 5, (REGFILE_ADDR (reg.setWidth 32)).toNat < 0x10000 := by decide
    exact in_control_add b (hsmall reg)
  have hfault : ∀ (mode : FaultMode) (reg : BitVec 5), b.in_control (b.fault mode reg) := by
    intro mode reg
    have hsmall : ∀ reg : BitVec 5,
        (FAULT_REQUEST mode.value (reg.setWidth 32)).toNat < 0x10000 := by
      cases mode <;> decide
    exact in_control_add b (hsmall reg)
  cases r with
  | protocol_version => exact ⟨w, ⟨w, w, .refl w, rfl, .refl w⟩, hh⟩
  | start => exact hw.control_out32_serves rfl (hcontrol _ (by decide)) hh hp
  | stop => exact hw.control_out32_serves rfl (hcontrol _ (by decide)) hh hp
  | step => exact hw.control_out32_serves rfl (hcontrol _ (by decide)) hh hp
  | get_pc => exact hw.control_in32_serves rfl (hcontrol _ (by decide)) hh hp
  | set_pc pc => exact hw.control_out32_serves rfl (hcontrol _ (by decide)) hh hp
  | get_reg reg => exact hw.control_in32_serves rfl (hregfile reg) hh hp
  | set_reg reg value => exact hw.control_out32_serves rfl (hregfile reg) hh hp
  | fault_reg reg mode mask => exact hw.control_out32_serves rfl (hfault mode reg) hh hp
  | read_word addr =>
    obtain ⟨value, w₂, hserve, -⟩ := hp w (.refl w)
    obtain ⟨hrun, hin⟩ := Worker.halted_of_read_word hserve
    obtain ⟨hvalue, hholds⟩ := hw.bram_read hrun hin hh
    refine ⟨w, ⟨w, w, .refl w, ?_, .refl w⟩, hholds⟩
    rw [Worker.serve_read_word hrun hin, Request.value, hvalue]
  | write_word addr value =>
    obtain ⟨_, _, hserve, -⟩ := hp w (.refl w)
    obtain ⟨w₂, hwith, -⟩ := Option.map_eq_some_iff.mp hserve
    obtain ⟨hrun, hin⟩ := Worker.halted_of_with_word hwith
    refine ⟨_, ⟨w, _, .refl w, ?_, .refl _⟩, hw.bram_write hrun hin hh⟩
    rw [Worker.serve, Worker.with_word_eq hrun hin]
    rfl
  | fault_mem addr mode mask =>
    obtain ⟨_, _, hserve, -⟩ := hp w (.refl w)
    obtain ⟨w₂, hwith, -⟩ := Option.map_eq_some_iff.mp hserve
    obtain ⟨hrun, hin⟩ := Worker.halted_of_with_word hwith
    -- the word is read, changed by the firmware, and written back
    obtain ⟨hvalue, hread⟩ := hw.bram_read hrun hin hh
    refine ⟨_, ⟨w, _, .refl w, ?_, .refl _⟩, hw.bram_write hrun hin hread⟩
    rw [Worker.serve, Worker.with_word_eq hrun hin, hvalue]
    rfl

end requests

end Firmware

end RiscvWorker
