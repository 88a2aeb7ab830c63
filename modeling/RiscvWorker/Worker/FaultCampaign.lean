import RiscvWorker.Library.BitMask
import RiscvWorker.Worker.LatentFaults

/-! # Many faults

  A campaign injects faults one after the other, in registers and in words of
  the block RAM. Each fault is a bit mask on the place that it hits, so all
  the faults of one place come to one mask, which does not depend on the
  faults elsewhere: only the order of the faults of the same place matters.
-/

namespace RiscvWorker

open ByteMemory
open Text (Byte)
open Interaction (Program wp wp_mono)
open Firmware (Board FaultMode Wired apply_fault_mode)
open Rv32i (ArchState)

namespace Host

/-- A fault mode as a mask. -/
def mode_mask (mode : FaultMode) (mask : Word) : BitMask 32 :=
  match mode with
  | .CM_FAULT_MODE_OVERWRITE => .replace mask
  | .CM_FAULT_MODE_XOR_MASK => .invert mask
  | .CM_FAULT_MODE_OR_MASK => .set mask
  | .CM_FAULT_MODE_ANDN_MASK => .clear mask

theorem apply_fault_mode_eq (original mask : Word) (mode : FaultMode) :
    apply_fault_mode original mode.value mask = mode_mask mode mask • original := by
  cases mode with
  | CM_FAULT_MODE_OVERWRITE => exact (BitMask.replace_smul mask original).symm
  | CM_FAULT_MODE_XOR_MASK => exact (BitMask.invert_smul mask original).symm
  | CM_FAULT_MODE_OR_MASK => exact (BitMask.set_smul mask original).symm
  | CM_FAULT_MODE_ANDN_MASK => exact (BitMask.clear_smul mask original).symm

namespace Fault

def bit_mask : Fault → BitMask 32
  | .reg _ mode mask | .mem _ mode mask => mode_mask mode (BitVec.ofInt 32 mask)

def hits_register (r : BitVec 5) : Fault → Bool
  | .reg r' _ _ => r' == r
  | .mem _ _ _ => false

def hits_word (a : Word) : Fault → Bool
  | .reg _ _ _ => false
  | .mem a' _ _ => a' == a

variable {bram : Word} {f : Fault} (hf : f.Valid bram) (A : ArchState)
include hf

theorem reg_apply (r : BitVec 5) :
    (f.apply A).reg r = if f.hits_register r then f.bit_mask • A.reg r else A.reg r := by
  cases f with
  | mem a mode mask => rfl
  | reg r' mode mask =>
    have hr' : r' ≠ 0#5 := hf
    unfold Fault.apply hits_register bit_mask
    rw [ArchState.reg_set_reg, apply_fault_mode_eq]
    by_cases hr : r = r'
    · rw [if_pos ⟨hr, hr'⟩, hr, if_pos (beq_self_eq_true r')]
    · rw [if_neg fun hc => hr hc.1, if_neg]
      simpa using Ne.symm hr

theorem word_apply {a : Word} (ha : a.toNat % 4 = 0) :
    load_word (f.apply A).mem a =
      if f.hits_word a then f.bit_mask • load_word A.mem a else load_word A.mem a := by
  cases f with
  | reg r mode mask =>
    show load_word (A.set_reg r _).mem a = _
    rw [ArchState.mem_set_reg]
    rfl
  | mem a' mode mask =>
    have ha' : a'.toNat % 4 = 0 := aligned_of_in_bram hf
    unfold Fault.apply hits_word bit_mask
    dsimp only
    rw [load_word_store_word _ _ ha' ha, apply_fault_mode_eq]
    by_cases heq : a = a'
    · rw [if_pos heq, heq, if_pos (beq_self_eq_true a')]
    · rw [if_neg heq, if_neg]
      simpa using Ne.symm heq

omit hf in
theorem pc_apply : (f.apply A).pc = A.pc := (f.agree A).pc.symm

end Fault

/-! ### Campaigns -/

/-- The faults one after the other. -/
def injected (A : ArchState) (faults : List Fault) : ArchState :=
  faults.foldl (fun A f => f.apply A) A

/-- The mask that the faults with `hits` come to. -/
def total_mask (hits : Fault → Bool) (faults : List Fault) : BitMask 32 :=
  .total ((faults.filter hits).map Fault.bit_mask)

theorem injected_concat (A : ArchState) (faults : List Fault) (f : Fault) :
    injected A (faults ++ [f]) = f.apply (injected A faults) := by
  unfold injected
  rw [List.foldl_append]
  rfl

theorem total_mask_concat (hits : Fault → Bool) (faults : List Fault) (f : Fault) :
    total_mask hits (faults ++ [f]) =
      if hits f then f.bit_mask * total_mask hits faults else total_mask hits faults := by
  unfold total_mask
  rw [List.filter_append, List.map_append]
  by_cases hf : hits f = true
  · rw [if_pos hf, List.filter_cons_of_pos hf, List.filter_nil, List.map_singleton,
      BitMask.total_concat]
  · rw [if_neg hf, List.filter_cons_of_neg hf, List.filter_nil, List.map_nil, List.append_nil]

section injected
variable {bram : Word} {faults : List Fault} (hfaults : ∀ f ∈ faults, f.Valid bram) (A : ArchState)

theorem injected_pc (faults : List Fault) : (injected A faults).pc = A.pc := by
  induction faults using List.reverseRecOn with
  | nil => rfl
  | append_singleton faults f ih => rw [injected_concat, Fault.pc_apply, ih]

include hfaults

theorem injected_reg (r : BitVec 5) :
    (injected A faults).reg r = total_mask (Fault.hits_register r) faults • A.reg r := by
  induction faults using List.reverseRecOn with
  | nil => exact (one_smul _ _).symm
  | append_singleton faults f ih =>
    have hf := hfaults f (by simp)
    have hrest := ih fun g hg => hfaults g (List.mem_append_left _ hg)
    rw [injected_concat, Fault.reg_apply hf, total_mask_concat, hrest]
    split
    · exact (mul_smul _ _ _).symm
    · rfl

theorem injected_word {a : Word} (ha : a.toNat % 4 = 0) :
    load_word (injected A faults).mem a =
      total_mask (Fault.hits_word a) faults • load_word A.mem a := by
  induction faults using List.reverseRecOn with
  | nil => exact (one_smul _ _).symm
  | append_singleton faults f ih =>
    have hf := hfaults f (by simp)
    have hrest := ih fun g hg => hfaults g (List.mem_append_left _ hg)
    rw [injected_concat, Fault.word_apply hf _ ha, total_mask_concat, hrest]
    split
    · exact (mul_smul _ _ _).symm
    · rfl

end injected

def inject_all (faults : List Fault) : Script Unit :=
  Program.each (fun f : Fault => Script.call f.method) faults

theorem wp_inject_all {bram : Word} {A : ArchState} {out : List (List Byte)} {faults : List Fault}
    (hfaults : ∀ f ∈ faults, f.Valid bram) {Q : Unit → Bench → Prop}
    {E : Failure → Bench → Prop} (hQ : Q () (at_rest (injected A faults) out)) :
    wp (client_service bram) (inject_all faults) Q E (at_rest A out) := by
  refine wp_mono
    (Q := fun _ w => w = at_rest (injected A (faults.take faults.length)) out) ?_
    (fun _ _ he => he) ?_
  · intro _ w hw
    rw [hw, List.take_length]
    exact hQ
  · refine Interaction.wp_each (I := fun k w => w = at_rest (injected A (faults.take k)) out) ?_ rfl
    intro k hk w hw
    rw [hw]
    refine Fault.wp_inject (hfaults _ (List.getElem_mem hk)) ?_
    rw [List.take_succ_eq_append_getElem hk, injected_concat]

/-- x5 is hit twice, with a fault of the memory in between. -/
def three_faults : List Fault :=
  [.reg 5#5 .CM_FAULT_MODE_OVERWRITE 0xFF, .mem 0x40000000#32 .CM_FAULT_MODE_OR_MASK 0xF0,
    .reg 5#5 .CM_FAULT_MODE_ANDN_MASK 0x0F]

end Host

end RiscvWorker
