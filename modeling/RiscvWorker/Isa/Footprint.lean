import RiscvWorker.Isa.Rv32i
import RiscvWorker.Library.Footprint
import RiscvWorker.Library.Lts

/-! # What an instruction reads and writes

  An instruction looks at the PC, at the bytes of its own word, and at the
  registers and bytes that it reads. Two states that agree there take the
  same step, and agree afterwards on what is written, too. So a run can be
  repeated from any state that agrees with its first one on what it reads
  without having written it before.
-/

namespace Rv32i

open ByteMemory

/-! ### Registers -/

namespace ArchState

variable (A : ArchState) (r : Reg) (v : Word)

theorem reg_set_reg (r' : Reg) :
    (A.set_reg r v).reg r' = if r' = r ∧ r ≠ 0#5 then v else A.reg r' := by
  unfold set_reg reg
  by_cases h0 : r = 0#5
  · simp [h0]
  · by_cases hr : r' = r
    · simp [h0, hr]
    · simp [h0, hr]

theorem mem_set_reg : (A.set_reg r v).mem = A.mem := by
  unfold set_reg
  split <;> rfl

theorem pc_set_reg : (A.set_reg r v).pc = A.pc := by
  unfold set_reg
  split <;> rfl

/-- The entry that `reg` hides. -/
theorem x_zero_set_reg : (A.set_reg r v).x 0#5 = A.x 0#5 := by
  unfold set_reg
  split
  · rfl
  · rename_i hr
    exact if_neg (Ne.symm hr)

end ArchState

theorem exec_x_zero (A : ArchState) (i : Instr) : (exec A i).x 0#5 = A.x 0#5 := by
  cases i with
  | branch op rs1 rs2 imm => rfl
  | store op rs1 rs2 imm => rfl
  | _ => exact ArchState.x_zero_set_reg ..

theorem step_x_zero {A A' : ArchState} (h : step A = some A') : A'.x 0#5 = A.x 0#5 := by
  obtain ⟨i, -, -, -, rfl⟩ := step_eq_some h
  exact exec_x_zero A i

/-! ### Footprints -/

/-- What a state consists of, the PC apart. -/
inductive Place where
  | reg (r : Reg)
  | byte (a : Word)

/-- The instruction at the PC. -/
def Executes (A : ArchState) (i : Instr) : Prop := decode (load_word A.mem A.pc) = some i

namespace Instr

def reads (A : ArchState) : Instr → Set Place
  | .lui _ _ | .auipc _ _ | .jal _ _ => ∅
  | .jalr _ rs1 _ | .op_imm _ _ rs1 _ => {.reg rs1}
  | .branch _ rs1 rs2 _ | .store _ rs1 rs2 _ | .op _ _ rs1 rs2 => {.reg rs1, .reg rs2}
  | .load width _ rs1 imm => insert (.reg rs1) (Place.byte '' bytes (A.reg rs1 + imm) width.size)

def writes (A : ArchState) : Instr → Set Place
  | .lui rd _ | .auipc rd _ | .jal rd _ | .jalr rd _ _ => {.reg rd}
  | .load _ rd _ _ | .op_imm _ rd _ _ | .op _ rd _ _ => {.reg rd}
  | .branch _ _ _ _ => ∅
  | .store width rs1 _ imm => Place.byte '' bytes (A.reg rs1 + imm) width.size

end Instr

/-- What the next instruction reads, its own word included. -/
def reads (A : ArchState) : Set Place :=
  Place.byte '' bytes A.pc 4 ∪ {p | ∃ i, Executes A i ∧ p ∈ i.reads A}

def writes (A : ArchState) : Set Place := {p | ∃ i, Executes A i ∧ p ∈ i.writes A}

theorem writes_eq {A : ArchState} {i : Instr} (h : Executes A i) : writes A = i.writes A := by
  ext p
  constructor
  · rintro ⟨j, hj, hp⟩
    obtain rfl : i = j := Option.some.inj (h.symm.trans hj)
    exact hp
  · exact fun hp => ⟨i, h, hp⟩

/-! ### States that agree -/

/-- The PCs are the same, and so is what is at the places of `S`. -/
structure Agree (S : Set Place) (A B : ArchState) : Prop where
  pc : A.pc = B.pc
  reg : ∀ r, .reg r ∈ S → A.reg r = B.reg r
  mem : ∀ a, .byte a ∈ S → A.mem a = B.mem a

namespace Agree

variable {S T : Set Place} {A B A' : ArchState}

theorem mono (h : Agree S A B) (hST : T ⊆ S) : Agree T A B :=
  ⟨h.pc, fun r hr => h.reg r (hST hr), fun a ha => h.mem a (hST ha)⟩

/-- States that agree everywhere. -/
theorem eq (h : Agree Set.univ A B) (hx : A.x 0#5 = B.x 0#5) : A = B := by
  obtain ⟨pc, x, mem⟩ := A
  obtain ⟨pc', x', mem'⟩ := B
  obtain rfl : pc = pc' := h.pc
  obtain rfl : mem = mem' := funext fun a => h.mem a trivial
  have hx' : x = x' := by
    funext r
    by_cases hr : r = 0#5
    · rw [hr]
      exact hx
    · have hreg := h.reg r trivial
      unfold ArchState.reg at hreg
      rwa [if_neg hr, if_neg hr] at hreg
  rw [hx']

section agree
variable (h : Agree S A B)
include h

theorem eqOn {R : Set Word} (hR : Place.byte '' R ⊆ S) : Set.EqOn A.mem B.mem R :=
  fun a ha => h.mem a (hR ⟨a, ha, rfl⟩)

theorem load {op : LoadOp} {a : Word} (ha : Place.byte '' bytes a op.size ⊆ S) :
    op.read A.mem a = op.read B.mem a := by
  have hm := h.eqOn ha
  cases op with
  | lb | lbu => rw [LoadOp.read, LoadOp.read, load_byte_congr hm]
  | lh | lhu => rw [LoadOp.read, LoadOp.read, load_half_congr hm]
  | lw => exact load_word_congr hm

/-- A result in a register. -/
theorem result {r : Reg} {v v' target target' : Word} (hv : v = v') (ht : target = target') :
    Agree (S ∪ {.reg r}) ((A.set_reg r v).goto target) ((B.set_reg r v').goto target') := by
  refine ⟨ht, fun r' hr' => ?_, fun a ha => ?_⟩
  · show (A.set_reg r v).reg r' = (B.set_reg r v').reg r'
    rw [ArchState.reg_set_reg, ArchState.reg_set_reg, hv]
    split
    · rfl
    · rename_i hne
      rcases hr' with hr' | hr'
      · exact h.reg r' hr'
      · -- only x0 is not written
        obtain rfl : r' = r := Place.reg.inj hr'
        obtain rfl : r' = 0#5 := by simpa using hne
        rfl
  · show (A.set_reg r v).mem a = (B.set_reg r v').mem a
    rw [ArchState.mem_set_reg, ArchState.mem_set_reg]
    exact h.mem a (ha.resolve_right (by simp))

theorem store (op : StoreOp) {a a' v v' : Word} (ha : a = a') (hv : v = v') :
    Agree (S ∪ Place.byte '' bytes a op.size) { A with mem := op.write A.mem a v }
      { B with mem := op.write B.mem a' v' } := by
  subst ha hv
  have heq : Set.EqOn A.mem B.mem {b | .byte b ∈ S} := h.mem
  have hop : Set.EqOn (op.write A.mem a v) (op.write B.mem a v)
      ({b | .byte b ∈ S} ∪ bytes a op.size) := by
    cases op with
    | sb => exact store_byte_congr heq v
    | sh => exact store_half_congr heq v
    | sw => exact store_word_congr heq v
  refine ⟨h.pc, fun r hr => h.reg r (hr.resolve_right (by simp)), fun b hb => hop ?_⟩
  rcases hb with hb | ⟨b', hb', hb⟩
  · exact .inl hb
  · rw [← Place.byte.inj hb]
    exact .inr hb'

theorem goto {target target' : Word} (ht : target = target') :
    Agree S (A.goto target) (B.goto target') := ⟨ht, h.reg, h.mem⟩

theorem executes_iff (hfetch : Place.byte '' bytes A.pc 4 ⊆ S) {i : Instr} :
    Executes A i ↔ Executes B i := by
  unfold Executes
  rw [load_word_congr (h.eqOn hfetch), h.pc]

section instruction
variable {i : Instr} (hreads : i.reads A ⊆ S)
include hreads

theorem aligned_eq : aligned A i = aligned B i := by
  have hr : ∀ {r}, .reg r ∈ i.reads A → A.reg r = B.reg r := fun hr => h.reg _ (hreads hr)
  cases i with
  | lui rd imm => rfl
  | auipc rd imm => rfl
  | jal rd imm => simp only [aligned, h.pc]
  | jalr rd rs1 imm => simp only [aligned, hr (.refl _)]
  | branch op rs1 rs2 imm => simp only [aligned, h.pc, hr (.inl rfl), hr (.inr rfl)]
  | load op rd rs1 imm => simp only [aligned, hr (.inl rfl)]
  | store op rs1 rs2 imm => simp only [aligned, hr (.inl rfl)]
  | op_imm op rd rs1 imm => rfl
  | op op rd rs1 rs2 => rfl

/-- One instruction that reads only where the states agree. -/
theorem exec : Agree (S ∪ i.writes A) (Rv32i.exec A i) (Rv32i.exec B i) := by
  have hpc : A.pc + 4#32 = B.pc + 4#32 := by rw [h.pc]
  have hr : ∀ {r}, .reg r ∈ i.reads A → A.reg r = B.reg r := fun hr => h.reg _ (hreads hr)
  cases i with
  | lui rd imm => exact h.result rfl hpc
  | auipc rd imm => exact h.result (by rw [h.pc]) hpc
  | jal rd imm => exact h.result hpc (by rw [h.pc])
  | jalr rd rs1 imm => exact h.result hpc (by rw [hr (.refl _)])
  | branch op rs1 rs2 imm =>
    show Agree (S ∪ ∅) _ _
    rw [Set.union_empty]
    exact h.goto (by rw [hr (.inl rfl), hr (.inr rfl), h.pc])
  | load op rd rs1 imm =>
    have hload := h.load ((Set.subset_insert _ _).trans hreads)
    exact h.result (by rw [hload, hr (.inl rfl)]) hpc
  | store op rs1 rs2 imm =>
    exact (h.store op (by rw [hr (.inl rfl)]) (hr (.inr rfl))).goto hpc
  | op_imm op rd rs1 imm => exact h.result (by rw [hr (.refl _)]) hpc
  | op op rd rs1 rs2 => exact h.result (by rw [hr (.inl rfl), hr (.inr rfl)]) hpc

end instruction

/-- A step that reads only where the states agree. -/
theorem step (hreads : Rv32i.reads A ⊆ S) (hstep : Rv32i.step A = some A') :
    ∃ B', Rv32i.step B = some B' ∧ Agree (S ∪ Rv32i.writes A) A' B' := by
  obtain ⟨i, hpc, hdec, hal, rfl⟩ := step_eq_some hstep
  have hexecutes : Executes A i := hdec
  have hinstr : i.reads A ⊆ S := fun p hp => hreads (.inr ⟨i, hexecutes, hp⟩)
  have hB : Executes B i :=
    (h.executes_iff (Set.subset_union_left.trans hreads)).mp hexecutes
  refine ⟨Rv32i.exec B i, ?_, ?_⟩
  · unfold Rv32i.step
    rw [if_pos (by rw [← h.pc]; exact hpc), show decode (load_word B.mem B.pc) = some i from hB,
      Option.bind_some, ← h.aligned_eq hinstr, if_pos hal]
  · rw [writes_eq hexecutes]
    exact h.exec hinstr

end agree

end Agree

/-! ### Runs -/

/-- What is written before instruction `k` of a run. -/
def written (trace : Nat → ArchState) (k : Nat) : Set Place :=
  {p | ∃ j, j < k ∧ p ∈ writes (trace j)}

theorem written_succ (trace : Nat → ArchState) (k : Nat) :
    written trace (k + 1) = written trace k ∪ writes (trace k) := by
  ext p
  constructor
  · rintro ⟨j, hj, hp⟩
    rcases Nat.lt_succ_iff_lt_or_eq.mp hj with hlt | rfl
    · exact .inl ⟨j, hlt, hp⟩
    · exact .inr hp
  · rintro (⟨j, hj, hp⟩ | hp)
    · exact ⟨j, Nat.lt_succ_of_lt hj, hp⟩
    · exact ⟨k, Nat.lt_succ_self k, hp⟩

/-- A run that reads nothing outside of `S` but what it has written before. -/
def Within (S : Set Place) (trace : Nat → ArchState) (n : Nat) : Prop :=
  ∀ k, k < n → reads (trace k) ⊆ S ∪ written trace k

section runs
variable {S : Set Place} {trace : Nat → ArchState} {n : Nat} {B : ArchState}
  (h : Agree S (trace 0) B)
  (hsteps : ∀ k, k < n → Rv32i.step (trace k) = some (trace (k + 1)))
  (hwithin : Within S trace n)
include h hsteps hwithin

/-- Such a run can be repeated wherever `S` is the same. -/
theorem Agree.repeated : ∃ trace' : Nat → ArchState, trace' 0 = B ∧
    (∀ k, k < n → Rv32i.step (trace' k) = some (trace' (k + 1))) ∧
    ∀ k, k ≤ n → Agree (S ∪ written trace k) (trace k) (trace' k) := by
  refine Lts.exists_run (R := fun k => Agree (S ∪ written trace k) (trace k)) (h.mono ?_) ?_
  · rintro p (hp | ⟨j, hj, -⟩)
    · exact hp
    · exact absurd hj (Nat.not_lt_zero j)
  · intro k hk C hagree
    obtain ⟨C', hC', hagree'⟩ := hagree.step (hwithin k hk) (hsteps k hk)
    refine ⟨C', hC', ?_⟩
    rwa [written_succ, ← Set.union_assoc]

end runs

end Rv32i
