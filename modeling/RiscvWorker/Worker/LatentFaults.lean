import RiscvWorker.Isa.Footprint
import RiscvWorker.Worker.Client

/-! # Faults that do not show

  A fault in a register or in a word of the block RAM is latent as long as
  the program does not read it. It cannot spread: whatever the program does,
  nothing else becomes different. And it is gone once everything that it has
  hit is overwritten.
-/

namespace RiscvWorker

open ByteMemory
open Text (Byte)
open Interaction (Program wp wp_seq wp_mono)
open Firmware (Board FaultMode Wired apply_fault_mode)
open Rv32i (ArchState Agree Place Within written)

namespace Host

/-! ### Faults -/

/-- A fault that the client can inject. -/
inductive Fault where
  | reg (r : BitVec 5) (mode : FaultMode) (mask : Int)
  | mem (a : Word) (mode : FaultMode) (mask : Int)

namespace Fault

def method : Fault → Method
  | .reg r mode mask => .fault_reg r.toNat mode.value.toNat mask
  | .mem a mode mask => .fault_mem a.toNat mode.value.toNat mask

/-- x0 cannot be hit, nor can anything outside of the block RAM. -/
def Valid (bram : Word) : Fault → Prop
  | .reg r _ _ => r ≠ 0#5
  | .mem a _ _ => in_bram bram a = true

def places : Fault → Set Place
  | .reg r _ _ => {.reg r}
  | .mem a _ _ => Place.byte '' bytes a 4

def apply (A : ArchState) : Fault → ArchState
  | .reg r mode mask =>
    A.set_reg r (apply_fault_mode (A.reg r) mode.value (BitVec.ofInt 32 mask))
  | .mem a mode mask =>
    { A with
      mem := store_word A.mem a
        (apply_fault_mode (load_word A.mem a) mode.value (BitVec.ofInt 32 mask)) }

variable {bram : Word} {A : ArchState} {out : List (List Byte)}

theorem wp_inject {f : Fault} (hf : f.Valid bram) {Q : Unit → Bench → Prop}
    {E : Failure → Bench → Prop} (hQ : Q () (at_rest (f.apply A) out)) :
    wp (client_service bram) (Script.call f.method) Q E (at_rest A out) := by
  cases f with
  | reg r mode mask => exact wp_fault_reg hf mode mask hQ
  | mem a mode mask =>
    refine wp_fault_mem hf mode mask ?_
    rintro value rfl
    exact hQ

/-- Nothing else is different. -/
theorem agree (f : Fault) (A : ArchState) : Agree f.placesᶜ A (f.apply A) := by
  cases f with
  | reg r mode mask =>
    refine ⟨(A.pc_set_reg r _).symm, fun r' hr' => ?_,
      fun a _ => congrFun (A.mem_set_reg r _).symm a⟩
    have hne : r' ≠ r := by
      rintro rfl
      exact hr' rfl
    unfold Fault.apply
    rw [ArchState.reg_set_reg, if_neg fun hc => hne hc.1]
  | mem a mode mask =>
    refine ⟨rfl, fun _ _ => rfl, fun b hb => ?_⟩
    have hmiss : b ∉ bytes a 4 := fun hbytes => hb ⟨b, hbytes, rfl⟩
    exact (store_word_frame A.mem _ hmiss).symm

end Fault

/-- A fault, and `n` steps after it. -/
def inject_and_step (f : Fault) (n : Nat) : Script Unit := do
  Script.call f.method
  Program.each (fun _ : Nat => Script.call .step) (List.range n)

theorem wp_steps {bram : Word} {out : List (List Byte)} {n : Nat} {trace : Nat → ArchState}
    (hsteps : ∀ k, k < n → Rv32i.step (trace k) = some (trace (k + 1)))
    {Q : Unit → Bench → Prop} {E : Failure → Bench → Prop} (hQ : Q () (at_rest (trace n) out)) :
    wp (client_service bram) (Program.each (fun _ : Nat => Script.call .step) (List.range n)) Q E
      (at_rest (trace 0) out) := by
  refine wp_mono (Q := fun _ w => w = at_rest (trace (List.range n).length) out) ?_
    (fun _ _ he => he) ?_
  · rintro - w rfl
    rwa [List.length_range]
  · refine Interaction.wp_each (I := fun k w => w = at_rest (trace k) out) ?_ rfl
    rintro k hk w rfl
    rw [List.length_range] at hk
    exact wp_step (hsteps k hk) rfl

/-- The register that is always zero plays no role. -/
theorem trace_x_zero {n : Nat} {trace : Nat → ArchState}
    (hsteps : ∀ k, k < n → Rv32i.step (trace k) = some (trace (k + 1))) {k : Nat} (hk : k ≤ n) :
    (trace k).x 0#5 = (trace 0).x 0#5 := by
  induction k with
  | zero => rfl
  | succ k ih => rw [Rv32i.step_x_zero (hsteps k hk), ih (by omega)]

/-- `addi x5, x0, 5` everywhere. -/
def fives : Memory := fun a => lane 0x00500293#32 (offset a)

def five_trace : Nat → ArchState
  | 0 => boot_state fives
  | _ + 1 => ⟨0x00001004#32, fun r => if r = 5#5 then 5#32 else 0#32, fives⟩

theorem fives_executes {i : Rv32i.Instr} (h : Rv32i.Executes (boot_state fives) i) :
    i = .op_imm .addi 5#5 0#5 5#32 := by
  have hword : load_word fives BOOT_ADDR = 0x00500293#32 := by decide
  have hdecode : Rv32i.decode (load_word fives BOOT_ADDR) = some i := h
  rw [hword] at hdecode
  exact (Option.some.inj hdecode).symm

end Host

end RiscvWorker
