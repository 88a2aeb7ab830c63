import RiscvWorker.Library.Footprint
import RiscvWorker.Worker.TestCase

/-! # The self tests on the worker

  `run_demo_program_test` and `run_fault_injection_test` raise if anything is
  not as expected. On a wired board with a halted worker they never do,
  whatever is in its registers and in its memory.
-/

namespace RiscvWorker

open ByteMemory
open Text (Byte ascii)
open Interaction (Program wp wp_seq wp_mono)
open Firmware (Board FaultMode Wired apply_fault_mode)
open Rv32i (ArchState Instr)

namespace Host

namespace Demo

/-! ### The run of the demo program -/

def words : List Word := as_words DEMO_PROGRAM

def instructions : List Instr :=
  [.op_imm .addi 5#5 0#5 171#32, .op_imm .addi 6#5 0#5 205#32, .op_imm .addi 7#5 0#5 239#32,
    .lui 10#5 0x40001000#32, .store .sb 10#5 5#5 0#32, .store .sb 10#5 6#5 1#32,
    .store .sb 10#5 5#5 5#32, .store .sb 10#5 7#5 8#32, .store .sw 10#5 7#5 12#32]

/-- The state after the upload, with the PC at the first instruction. -/
def start (A : ArchState) : ArchState := { uploaded A BRAM_BASE words with pc := BRAM_BASE }

/-- The state after `k` instructions. -/
def state (A : ArchState) : Nat → ArchState
  | 0 => start A
  | k + 1 => Rv32i.exec (state A k) (instructions.getD k (.jal 0#5 0#32))

variable (A : ArchState)

theorem lt_nine_cases {k : Nat} (hk : k < 9) : k = 0 ∨ k = 1 ∨ k = 2 ∨ k = 3 ∨ k = 4 ∨ k = 5 ∨
    k = 6 ∨ k = 7 ∨ k = 8 := by omega

theorem state_pc {k : Nat} (hk : k ≤ 9) : (state A k).pc = word_addr BRAM_BASE k := by
  induction k with
  | zero => rfl
  | succ k ih =>
    have hnext : (state A (k + 1)).pc = (state A k).pc + 4#32 := by
      rcases lt_nine_cases hk with h | h | h | h | h | h | h | h | h <;> rw [h] <;> rfl
    rw [hnext, ih (by omega)]
    unfold word_addr
    rw [BitVec.add_assoc, ← BitVec.ofNat_add]
    rfl

/-- The program is not overwritten. -/
theorem state_mem {k : Nat} (hk : k ≤ 9) {b : Word} (hb : b.toNat < 0x40001000) :
    (state A k).mem b = (start A).mem b := by
  have hmiss : ∀ {n : Nat} {a : Word}, 0x40001000 ≤ a.toNat → a.toNat + n < 2 ^ 32 →
      b ∉ bytes a n := by
    intro n a ha hn hmem
    obtain ⟨j, hj, hbj⟩ := hmem
    rw [hbj, BitVec.toNat_add, BitVec.toNat_ofNat] at hb
    omega
  induction k with
  | zero => rfl
  | succ k ih =>
    rw [← ih (by omega)]
    rcases lt_nine_cases hk with h | h | h | h | h | h | h | h | h <;> rw [h]
    · rfl
    · rfl
    · rfl
    · rfl
    · exact store_byte_frame (a := 0x40001000#32) _ _ (hmiss (by decide) (by decide))
    · exact store_byte_frame (a := 0x40001001#32) _ _ (hmiss (by decide) (by decide))
    · exact store_byte_frame (a := 0x40001005#32) _ _ (hmiss (by decide) (by decide))
    · exact store_byte_frame (a := 0x40001008#32) _ _ (hmiss (by decide) (by decide))
    · exact store_word_frame (a := 0x4000100C#32) _ _ (hmiss (by decide) (by decide))

theorem decode_words :
    ∀ k, k < 9 → Rv32i.decode (words.getD k 0#32) = some (instructions.getD k (.jal 0#5 0#32)) := by
  decide

/-- The address that the stores use. -/
theorem state_base {k : Nat} (hk : k < 5) : (state A (4 + k)).reg 10#5 = 0x40001000#32 := by
  have hcases : k = 0 ∨ k = 1 ∨ k = 2 ∨ k = 3 ∨ k = 4 := by omega
  rcases hcases with h | h | h | h | h <;> rw [h] <;> rfl

theorem aligned_instructions {k : Nat} (hk : k < 9) :
    Rv32i.aligned (state A k) (instructions.getD k (.jal 0#5 0#32)) = true := by
  have hstore : ∀ j, j < 5 → ∀ (op : Rv32i.StoreOp) (rs2 : BitVec 5) (imm : Word),
      (0x40001000#32 + imm).toNat % op.size = 0 →
      Rv32i.aligned (state A (4 + j)) (.store op 10#5 rs2 imm) = true := by
    intro j hj op rs2 imm h
    show (((state A (4 + j)).reg 10#5 + imm).toNat % op.size == 0) = true
    rw [state_base A hj, h]
    rfl
  rcases lt_nine_cases hk with h | h | h | h | h | h | h | h | h <;> rw [h]
  · rfl
  · rfl
  · rfl
  · rfl
  · exact hstore 0 (by decide) .sb 5#5 0#32 (by decide)
  · exact hstore 1 (by decide) .sb 6#5 1#32 (by decide)
  · exact hstore 2 (by decide) .sb 5#5 5#32 (by decide)
  · exact hstore 3 (by decide) .sb 7#5 8#32 (by decide)
  · exact hstore 4 (by decide) .sw 7#5 12#32 (by decide)

theorem state_step {k : Nat} (hk : k < 9) :
    Rv32i.step (state A k) = some (state A (k + 1)) := by
  have hlen : k < words.length := by
    show k < 10
    omega
  have hfetch : load_word (state A k).mem (word_addr BRAM_BASE k) = words[k] := by
    rw [← load_word_store_words A.mem (by decide : BRAM_BASE.toNat % 4 = 0)
      (by decide : 4 * words.length ≤ 2 ^ 32) hlen]
    refine load_word_congr fun b hb => state_mem A (by omega) ?_
    obtain ⟨j, hj, hbj⟩ := hb
    have hbase : BRAM_BASE.toNat = 0x40000000 := rfl
    rw [hbj, word_addr, BitVec.toNat_add, BitVec.toNat_add, BitVec.toNat_ofNat, BitVec.toNat_ofNat]
    omega
  have hdecode := decode_words k hk
  rw [List.getD_eq_getElem?_getD, List.getElem?_eq_getElem hlen, Option.getD_some] at hdecode
  unfold Rv32i.step
  rw [state_pc A (by omega), if_pos (word_addr_aligned (by decide) k), hfetch, hdecode,
    Option.bind_some, if_pos (aligned_instructions A hk)]
  rfl

/-! ### Checks -/

section checks
variable {bram : Word} {out : List (List Byte)} {E : Failure → Bench → Prop}
  {Q : Unit → Bench → Prop}

theorem byte_of_lane (v : Word) (j : Nat) : byte_of v.toNat j = ((lane v j).toNat : Int) := by
  unfold byte_of lane
  rw [BitVec.extractLsb'_toNat, Nat.mul_comm j 8]
  rfl

theorem wp_expect_eq {label : List Byte} {actual expected : Int} {w : Bench}
    (h : actual = expected) (hQ : Q () w) :
    wp (client_service bram) (expect_eq label actual expected) Q E w := by
  unfold expect_eq
  rw [if_neg (not_not.mpr h)]
  exact hQ

/-- A step of the program, and what follows. -/
theorem wp_next {k : Nat} (hk : k < 9) {f : Unit → Script Unit}
    (h : wp (client_service bram) (f ()) Q E (at_rest (state A (k + 1)) out)) :
    wp (client_service bram) (Script.call .step >>= f) Q E (at_rest (state A k) out) :=
  wp_seq (wp_step (state_step A hk) h)

theorem wp_step_and_expect {k : Nat} (hk : k < 9) {pc_label reg_label : List Byte}
    (reg : BitVec 5) {pc expected : Int} (hpc : ((state A (k + 1)).pc.toNat : Int) = pc)
    (hreg : (((state A (k + 1)).reg reg).toNat : Int) = expected)
    (hQ : Q () (at_rest (state A (k + 1)) out)) :
    wp (client_service bram) (step_and_expect pc_label reg_label pc reg.toNat expected) Q E
      (at_rest (state A k) out) :=
  wp_next A hk (wp_seq (wp_get_pc (wp_seq (wp_expect_eq hpc
    (wp_seq (wp_get_reg reg (wp_expect_eq hreg hQ)))))))

/-- A byte of the memory after a step. -/
theorem wp_expect_byte {k : Nat} {label : List Byte} {a : Word} (hin : in_bram bram a = true)
    {j : Nat} (hj : j < 4) {expected : Int} {f : Unit → Script Unit}
    (hbyte : (((state A k).mem (a + BitVec.ofNat 32 j)).toNat : Int) = expected)
    (h : wp (client_service bram) (f ()) Q E (at_rest (state A k) out)) :
    wp (client_service bram)
      (Script.value (.read_word a.toNat) >>= fun v =>
        expect_eq label (byte_of v j) expected >>= f) Q E (at_rest (state A k) out) := by
  refine wp_seq (wp_read_word hin (wp_seq (wp_expect_eq ?_ h)))
  rw [← hbyte, ← lane_word_of (fun i => (state A k).mem (a + BitVec.ofNat 32 i)) hj]
  exact byte_of_lane (load_word (state A k).mem a) j

end checks

/-- The demo program, from any state. -/
theorem wp_run_demo_program_test {A : ArchState} {out : List (List Byte)}
    {E : Failure → Bench → Prop} {Q : Unit → Bench → Prop} (hQ : Q () (at_rest (state A 9) out)) :
    wp (client_service BRAM_BASE) run_demo_program_test Q E (at_rest A out) := by
  refine wp_seq (@wp_upload_words _ BRAM_BASE _ _ _ _
    (fun k hk => in_bram_data (Nat.lt_trans hk (by decide))) (by decide) _ true ?_)
  refine wp_seq (wp_stop fun w hlater => ?_)
  obtain rfl := hlater.of_halted rfl
  refine wp_seq (wp_set_pc BRAM_BASE ?_)
  show wp _ _ _ _ (at_rest (state A 0) out)
  refine wp_seq (wp_get_pc (wp_seq (wp_expect_eq rfl ?_)))
  refine wp_seq (wp_step_and_expect A (by decide) 5#5 rfl rfl ?_)
  refine wp_seq (wp_step_and_expect A (by decide) 6#5 rfl rfl ?_)
  refine wp_seq (wp_step_and_expect A (by decide) 7#5 rfl rfl ?_)
  refine wp_seq (wp_step_and_expect A (by decide) 10#5 rfl rfl ?_)
  refine wp_next A (by decide) (wp_expect_byte (a := 0x40001000#32) A (by decide)
    (by decide : 0 < 4) rfl ?_)
  refine wp_next A (by decide) (wp_expect_byte (a := 0x40001000#32) A (by decide)
    (by decide : 1 < 4) rfl ?_)
  refine wp_next A (by decide) (wp_expect_byte (a := 0x40001004#32) A (by decide)
    (by decide : 1 < 4) rfl ?_)
  refine wp_next A (by decide) (wp_expect_byte (a := 0x40001008#32) A (by decide)
    (by decide : 0 < 4) rfl ?_)
  have hword : load_word (state A 9).mem 0x4000100C#32 = (state A 8).reg 7#5 :=
    (@load_word_store_word (state A 8).mem 0x4000100C#32 0x4000100C#32 _ (by decide)
      (by decide)).trans (if_pos rfl)
  refine wp_next A (by decide) ?_
  refine wp_seq (@wp_read_word _ _ _ _ _ 0x4000100C#32 (by decide) (wp_expect_eq ?_ hQ))
  show ((load_word (state A 9).mem 0x4000100C#32).toNat : Int) = _
  rw [hword]
  rfl

/-- The state that the fault injection leaves behind. -/
def faulted (A : ArchState) : ArchState :=
  { (state A 1).set_reg 5#5 0xA4#32 with
    mem := store_word (store_word (state A 1).mem 0x40001040#32 0x12345678#32) 0x40001040#32
      0x1234FF78#32 }

theorem wp_run_fault_injection_test {A : ArchState} {out : List (List Byte)}
    {E : Failure → Bench → Prop} {Q : Unit → Bench → Prop} (hQ : Q () (at_rest (faulted A) out)) :
    wp (client_service BRAM_BASE) run_fault_injection_test Q E (at_rest A out) := by
  have hprobe : in_bram BRAM_BASE 0x40001040#32 = true := by decide
  have hload : ∀ (m : Memory) (v : Word),
      load_word (store_word m 0x40001040#32 v) 0x40001040#32 = v :=
    fun m v => (load_word_store_word m v (by decide) (by decide)).trans (if_pos rfl)
  have hfault : apply_fault_mode ((state A 1).reg 5#5)
      (FaultMode.CM_FAULT_MODE_XOR_MASK.value) (BitVec.ofInt 32 0x0F) = 0xA4#32 := by
    have hbefore : (state A 1).reg 5#5 = 0xAB#32 := rfl
    rw [hbefore]
    decide
  refine wp_seq (@wp_upload_words _ BRAM_BASE _ _ _ _
    (fun k hk => in_bram_data (Nat.lt_trans hk (by decide))) (by decide) _ false ?_)
  refine wp_seq (wp_stop fun w hlater => ?_)
  obtain rfl := hlater.of_halted rfl
  refine wp_seq (wp_set_pc BRAM_BASE ?_)
  show wp _ _ _ _ (at_rest (state A 0) out)
  refine wp_next A (by decide) ?_
  refine wp_seq (wp_get_reg 5#5 (wp_seq (wp_expect_eq rfl ?_)))
  refine wp_seq (@wp_fault_reg _ _ _ _ _ 5#5 (by decide) .CM_FAULT_MODE_XOR_MASK 0x0F ?_)
  rw [show (state A (0 + 1)).reg 5#5 = (state A 1).reg 5#5 from rfl, hfault]
  refine wp_seq (wp_get_reg 5#5 (wp_seq (wp_expect_eq rfl ?_)))
  refine wp_seq (wp_write_word hprobe 0x12345678 ?_)
  refine wp_seq (wp_fault_mem hprobe .CM_FAULT_MODE_OR_MASK 0xFF00 fun value hvalue => ?_)
  dsimp only at hvalue
  rw [hload] at hvalue
  refine wp_seq (wp_read_word hprobe (wp_expect_eq ?_ ?_))
  · dsimp only
    rw [hload, hvalue]
    rfl
  · rw [hvalue]
    exact hQ

end Demo

end Host

end RiscvWorker
