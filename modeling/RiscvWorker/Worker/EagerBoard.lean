import RiscvWorker.Worker.OnBoard

/-! # A board that can be run

  The processing system and the memory of this board delay nothing: every
  access is made at full speed, and the firmware gets the machine back
  twenty cycles later. It is wired as the boards are.
-/

namespace RiscvWorker

open ByteMemory
open AxiLite (Master MemorySlave)
open Firmware (Board Wired State)

namespace Machine

/-- The cycle of the answer to an access at full speed. -/
def answer_cycle : Firmware.Access → Nat
  | .out32 _ _ => 5
  | .in32 _ => 3

def fast_master : Firmware.Access → Master
  | .out32 addr data => .writing addr data 0b1111#4
  | .in32 addr => .reading addr

/-- The master is idle after the answer. -/
def fast_input (a : Firmware.Access) (k : Nat) : Input where
  s_axi := if k ≤ answer_cycle a then fast_master a else .idle
  choice := MemorySlave.eager

def fast_run (a : Firmware.Access) (s : Machine) : Lts.Execution Machine Input :=
  .of_inputs next s (fast_input a)

/-- The machine after the access and a pause. -/
def after_access (a : Firmware.Access) (s : Machine) : Machine := (fast_run a s).states 20

/-- What the bus returns. -/
def bus_data (a : Firmware.Access) (s : Machine) : Word :=
  ((fast_run a s).states (answer_cycle a)).chip.s_axi.rdata

variable {s : Machine} (hfree : s.chip.soc_control.state = .idle)
include hfree

theorem fast_transaction (a : Firmware.Access) :
    CmAndCore.Transaction (chip_run (fast_run a s)) a 0 (answer_cycle a) := by
  have hmaster : ∀ j, j ≤ answer_cycle a → (fast_input a j).s_axi = fast_master a :=
    fun j hj => if_pos hj
  cases a with
  | out32 addr data =>
    have hwrite : SocControl.WriteTransaction (control_run (fast_run (.out32 addr data) s))
        0 1 2 5 :=
      .of_fast_master (fun _ => rfl) hfree (fun j _ hj => hmaster j hj)
    exact .write hwrite rfl ⟨rfl, rfl⟩
  | in32 addr =>
    have hread : SocControl.ReadTransaction (control_run (fast_run (.in32 addr) s)) 0 3 :=
      .of_fast_master (fun _ => rfl) hfree (fun j _ hj => hmaster j hj)
    exact .read hread rfl

theorem fast_access_run (a : Firmware.Access) :
    AccessRun 1 (fast_run a s) a (answer_cycle a) 20 where
  step _ := rfl
  prompt := MemorySlave.eager_prompt (fun _ => rfl) (fun _ => rfl)
  transaction := fast_transaction hfree a
  silent := by
    intro j hj _
    have hidle : ((fast_run a s).labels j).s_axi = .idle := if_neg (Nat.not_le.mpr hj)
    rw [hidle]
    exact ⟨rfl, rfl⟩
  late := by
    unfold pause
    cases a <;> simp [answer_cycle]

theorem fast_accesses (a : Firmware.Access) :
    Accesses 1 a s (answer_value a ((fast_run a s).states (answer_cycle a))) (after_access a s) :=
  ⟨_, _, _, fast_access_run hfree a, rfl, rfl, rfl⟩

omit hfree in
/-- Nothing happens in no time. -/
theorem Idles.refl (s : Machine) : Idles s s :=
  ⟨fast_run (.in32 0#32) s, 0, fun _ => rfl, fun _ hj => absurd hj (Nat.not_lt_zero _), rfl, rfl⟩

end Machine

namespace Machine

/-- After reset the worker is halted at the boot address. -/
theorem boot_holds (program : Memory) : (boot program).Holds ⟨false, boot_state program⟩ where
  free := rfl
  stall := rfl
  core := ⟨.waiting, .boot program, fun _ => rfl, Worker.sound_of_halted rfl⟩

end Machine

namespace Firmware

/-- The control module and the block RAM at the addresses of the block design. -/
def eager_board : Board Machine where
  in32 addr s :=
    if in_bram 0x40000000#32 addr then (load_word s.memory.mem addr, s)
    else (Machine.bus_data (.in32 addr) s, s.after_access (.in32 addr))
  out32 addr data s :=
    if in_bram 0x40000000#32 addr then s.with_memory (store_word s.memory.mem addr data)
    else s.after_access (.out32 addr data)
  dcache_flush _ _ s := s
  XPAR_RISCV_MOD_NAME_BASEADDR := 0x60000000#32
  XPAR_XBRAM_0_BASEADDR := 0x40000000#32

/-- The control module is not in the block RAM. -/
theorem not_in_bram_of_in_control {addr : Word} (h : eager_board.in_control addr) :
    in_bram 0x40000000#32 addr = false := by
  have hlow : (addr - 0x60000000#32).toNat < 0x10000 := h
  have hfar : ¬ (addr - 0x40000000#32).toNat < BRAM_RANGE := by
    unfold BRAM_RANGE
    rw [BitVec.toNat_sub] at hlow ⊢
    simp only [BitVec.toNat_ofNat] at hlow ⊢
    omega
  unfold in_bram
  rw [decide_eq_false hfar, Bool.false_and]

theorem eager_board_wired : Wired 1 eager_board id where
  baseaddr := by decide
  control_out32 := by
    intro s addr data hin hs
    have hout : eager_board.out32 addr data s = s.after_access (.out32 addr data) :=
      if_neg (by rw [not_in_bram_of_in_control hin]; decide)
    rw [hout]
    exact Machine.fast_accesses hs.free (.out32 addr data)
  control_in32 := by
    intro s addr hin hs
    have hread : eager_board.in32 addr s =
        (Machine.bus_data (.in32 addr) s, s.after_access (.in32 addr)) :=
      if_neg (by rw [not_in_bram_of_in_control hin]; decide)
    rw [hread]
    exact Machine.fast_accesses hs.free (.in32 addr)
  bram_out32 := by
    intro s addr data hin _
    have hout : eager_board.out32 addr data s =
        s.with_memory (store_word s.memory.mem addr data) := if_pos hin
    rw [hout]
    exact Machine.Idles.refl _
  bram_in32 := by
    intro s addr hin _
    have hread : eager_board.in32 addr s = (load_word s.memory.mem addr, s) := if_pos hin
    rw [hread]
    exact ⟨rfl, Machine.Idles.refl s⟩
  dcache_flush s _ _ _ := Machine.Idles.refl s

/-- The firmware before its first line. -/
def eager_state (program : Memory) : State Machine where
  line := ⟨List.replicate UART_LINE_MAX 0#8, List.length_replicate⟩
  strtok_save := none
  world := ⟨Machine.boot program, []⟩

end Firmware

end RiscvWorker
