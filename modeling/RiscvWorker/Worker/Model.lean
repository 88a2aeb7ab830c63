import RiscvWorker.Isa.Rv32i
import RiscvWorker.Library.Lts
import RiscvWorker.Firmware.Commands

/-! # The worker

  What the whole board is for, without a bus, a clock or a UART: a RISC-V
  hart that is halted or running. While it is halted nothing happens between
  two requests; while it is running any number of instructions may pass.
  `serve` is what a request does at one moment of this time.
-/

namespace RiscvWorker

open ByteMemory (Memory Word load_word store_word)
open Firmware (Request apply_fault_mode)
open Rv32i (ArchState Reg)

/-- The range of the block RAM in the address map of the block design. -/
def BRAM_RANGE : Nat := 0x2000

/-- A word of the block RAM. -/
def in_bram (bram addr : Word) : Bool :=
  (addr - bram).toNat < BRAM_RANGE && addr &&& 0x3#32 == 0#32

structure Worker where
  running : Bool
  state : ArchState

namespace Worker

/-- A hart that runs has something to run. -/
def Sound (w : Worker) : Prop := w.running = true → Lts.Endless Rv32i.step w.state

/-- Time passes. -/
def Later (w w' : Worker) : Prop :=
  w'.running = w.running ∧
    if w.running then Lts.Reaches Rv32i.step w.state w'.state else w'.state = w.state

variable (w : Worker)

/-- The registers that a debug write may change: x0 is none of them. -/
def with_reg (reg : Reg) (value : Word) : Option Worker :=
  if w.running ∨ reg = 0#5 then none else some { w with state := w.state.set_reg reg value }

/-- The words that the processing system may change. -/
def with_word (bram addr value : Word) : Option Worker :=
  if w.running ∨ in_bram bram addr = false then none
  else some { w with state.mem := store_word w.state.mem addr value }

/-- What a request returns and makes of the worker. It is left open what
    becomes of the registers and the memory under a running program. -/
def serve (bram : Word) : Request → Option (Option Word × Worker)
  | .protocol_version => some (some 1#32, w)
  | .start => some (none, { w with running := true })
  | .stop => some (none, { w with running := false })
  | .step =>
    -- a running hart takes the end of the pulse for a STOP
    if w.running then some (none, { w with running := false })
    else (Rv32i.step w.state).map fun A => (none, { w with state := A })
  | .get_pc => some (some w.state.pc, w)
  -- a running hart ignores it
  | .set_pc pc => some (none, if w.running then w else { w with state.pc := pc })
  | .get_reg reg => some (some (w.state.reg reg), w)
  | .set_reg reg value => (w.with_reg reg value).map fun w' => (none, w')
  | .read_word addr =>
    if w.running ∨ in_bram bram addr = false then none
    else some (some (load_word w.state.mem addr), w)
  | .write_word addr value => (w.with_word bram addr value).map fun w' => (none, w')
  | .fault_reg reg mode mask =>
    (w.with_reg reg (apply_fault_mode (w.state.reg reg) mode.value mask)).map fun w' => (none, w')
  | .fault_mem addr mode mask =>
    (w.with_word bram addr (apply_fault_mode (load_word w.state.mem addr) mode.value mask)).map
      fun w' => (none, w')

/-- A request between two others: it is served at some moment. -/
def Serves (bram : Word) (r : Request) (w : Worker) (value : Option Word) (w' : Worker) : Prop :=
  ∃ w₁ w₂, Later w w₁ ∧ w₁.serve bram r = some (value, w₂) ∧ Later w₂ w'

/-- Whenever the request is served, the worker knows what to do, and what it
    runs afterwards is a program. -/
def Permits (bram : Word) (r : Request) (w : Worker) : Prop :=
  ∀ w₁, Later w w₁ → ∃ value w₂, w₁.serve bram r = some (value, w₂) ∧ w₂.Sound

/-! ### Time -/

variable {w} {w' w'' : Worker}

theorem Later.refl (w : Worker) : Later w w := by
  refine ⟨rfl, ?_⟩
  split
  · exact .refl _
  · rfl

theorem Later.of_halted (hw : w.running = false) (h : Later w w') : w' = w := by
  obtain ⟨hrunning, hstate⟩ := h
  rw [hw, if_neg Bool.false_ne_true] at hstate
  cases w
  cases w'
  cases hrunning
  cases hstate
  rfl

theorem Later.of_running (hw : w.running = true) (h : Later w w') :
    w'.running = true ∧ Lts.Reaches Rv32i.step w.state w'.state := by
  obtain ⟨hrunning, hstate⟩ := h
  rw [hw] at hstate
  exact ⟨hrunning.trans hw, hstate⟩

theorem later_of_reaches (hw : w.running = true) {A : ArchState}
    (h : Lts.Reaches Rv32i.step w.state A) : Later w { w with state := A } := by
  refine ⟨rfl, ?_⟩
  rw [hw]
  exact h

theorem Later.trans (h : Later w w') (h' : Later w' w'') : Later w w'' := by
  cases hw : w.running with
  | false =>
    rw [← h.of_halted hw]
    exact h'
  | true =>
    obtain ⟨hrunning, hreach⟩ := h.of_running hw
    obtain ⟨hrunning', hreach'⟩ := h'.of_running hrunning
    refine ⟨hrunning'.trans hw.symm, ?_⟩
    rw [hw]
    exact hreach.trans hreach'

theorem Later.sound (h : Later w w') (hs : w.Sound) : w'.Sound := by
  intro hw'
  have hw : w.running = true := h.1.symm.trans hw'
  exact (hs hw).of_reaches (h.of_running hw).2

/-! ### A halted worker -/

theorem sound_of_halted (hw : w.running = false) : w.Sound := by
  intro hrunning
  rw [hw] at hrunning
  cases hrunning

section halted
variable {bram : Word} {r : Request} {value : Option Word}

/-- A halted worker serves a request as it is. -/
theorem Serves.of_halted (hw : w.running = false) (h : Serves bram r w value w') :
    ∃ w₂, w.serve bram r = some (value, w₂) ∧ Later w₂ w' := by
  obtain ⟨w₁, w₂, hlater, hserve, hlater'⟩ := h
  rw [hlater.of_halted hw] at hserve
  exact ⟨w₂, hserve, hlater'⟩

theorem permits_of_halted (hw : w.running = false) (h : w.serve bram r = some (value, w'))
    (hs : w'.Sound) : Permits bram r w := by
  intro w₁ hlater
  rw [hlater.of_halted hw]
  exact ⟨value, w', h, hs⟩

end halted

theorem with_reg_eq (hw : w.running = false) {reg : Reg} (hreg : reg ≠ 0#5) (value : Word) :
    w.with_reg reg value = some ⟨false, w.state.set_reg reg value⟩ := by
  unfold with_reg
  rw [hw, if_neg (by simp [hreg])]

/-- Registers are changed under a halted worker only, and x0 never. -/
theorem halted_of_with_reg {reg : Reg} {value : Word} (h : w.with_reg reg value = some w') :
    w.running = false ∧ reg ≠ 0#5 := by
  unfold with_reg at h
  split at h
  · cases h
  · rename_i hno
    exact ⟨Bool.eq_false_of_not_eq_true fun hc => hno (.inl hc), fun hc => hno (.inr hc)⟩

section words
variable {bram addr value : Word}

theorem with_word_eq (hw : w.running = false) (hin : in_bram bram addr = true) :
    w.with_word bram addr value =
      some { w with state.mem := store_word w.state.mem addr value } := by
  unfold with_word
  rw [hw, hin, if_neg (by simp)]

/-- The memory is changed under a halted worker only. -/
theorem halted_of_with_word (h : w.with_word bram addr value = some w') :
    w.running = false ∧ in_bram bram addr = true := by
  unfold with_word at h
  split at h
  · cases h
  · rename_i hno
    exact ⟨Bool.eq_false_of_not_eq_true fun hc => hno (.inl hc),
      Bool.eq_true_of_not_eq_false fun hc => hno (.inr hc)⟩

theorem serve_read_word (hw : w.running = false) (hin : in_bram bram addr = true) :
    w.serve bram (.read_word addr) = some (some (load_word w.state.mem addr), w) := by
  rw [serve, hw, hin, if_neg (by simp)]

theorem halted_of_read_word {result : Option Word × Worker}
    (h : w.serve bram (.read_word addr) = some result) :
    w.running = false ∧ in_bram bram addr = true := by
  rw [serve] at h
  split at h
  · cases h
  · rename_i hno
    exact ⟨Bool.eq_false_of_not_eq_true fun hc => hno (.inl hc),
      Bool.eq_true_of_not_eq_false fun hc => hno (.inr hc)⟩

end words

end Worker

end RiscvWorker
