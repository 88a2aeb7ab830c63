import RiscvWorker.Firmware.Main

/-! # The numbers of the command language

  Which tokens `parse_u32` takes for a number, compared with the unsigned
  32-bit literals that the protocol promises.
-/

namespace RiscvWorker

namespace Firmware

open Text (Byte ascii)
open CString (Literal Decoration strtoul unsigned_part is_negative strtoul_of_literal
  literal_of_strtoul unsigned_part_append unsigned_part_iff literal_iff)

/-! ### What parse_u32 accepts -/

/-- The value of a literal behind a sign. -/
def signed_value (negative : Bool) (v : Nat) : Word :=
  if negative then -BitVec.ofNat 32 v else BitVec.ofNat 32 v

theorem ofNat_negated {v : Nat} (hv : v < 2 ^ 32) :
    BitVec.ofNat 32 ((2 ^ 32 - v) % 2 ^ 32) = -BitVec.ofNat 32 v := by
  apply BitVec.eq_of_toNat_eq
  rw [BitVec.toNat_neg, BitVec.toNat_ofNat, BitVec.toNat_ofNat, Nat.mod_mod, Nat.mod_eq_of_lt hv]

/-- A literal behind white space and a sign is taken for its value. -/
theorem parse_u32_literal {token : List Byte} {v : Nat} (h : Literal (unsigned_part token) v)
    (hv : v ≤ UINT_MAX) (out : Word) :
    parse_u32 token out = (true, signed_value (is_negative token) v) := by
  have hlt : v < 2 ^ 32 := Nat.lt_of_le_of_lt hv (by decide)
  have hfit : ¬ 2 ^ 32 ≤ v := Nat.not_le_of_lt hlt
  have hread := strtoul_of_literal 32 h
  rw [if_neg hfit] at hread
  have hne : token ≠ [] := by
    intro hnil
    rw [hnil] at h
    exact ((literal_iff _ _).mp h).1 rfl
  have hpos := List.length_pos_of_ne_nil hne
  have hsyntax : ¬ (token = [] ∨ token.length = 0 ∨ token.drop token.length ≠ []) := by
    simp [hne]
  have hrange : ¬ (false = true ∨
      (if is_negative token then (2 ^ 32 - v) % 2 ^ 32 else v) > UINT_MAX) := by
    have hmod := Nat.mod_lt (2 ^ 32 - v) (show 0 < 2 ^ 32 by decide)
    have hmax : UINT_MAX = 2 ^ 32 - 1 := rfl
    rw [hmax] at hv ⊢
    refine not_or.mpr ⟨Bool.false_ne_true, ?_⟩
    split <;> omega
  unfold parse_u32
  dsimp only
  rw [hread, if_neg hsyntax, if_neg hrange]
  unfold signed_value
  split
  · rw [ofNat_negated hlt]
  · rfl

/-- Nothing else is accepted, and then `*out` keeps its value. -/
theorem parse_u32_rejects {token : List Byte}
    (h : ¬ ∃ v, Literal (unsigned_part token) v ∧ v ≤ UINT_MAX) (out : Word) :
    parse_u32 token out = (false, out) := by
  unfold parse_u32
  dsimp only
  by_cases hsyntax : token = [] ∨ (strtoul 32 token).consumed = 0 ∨
      token.drop (strtoul 32 token).consumed ≠ []
  · rw [if_pos hsyntax]
  · rw [if_neg hsyntax]
    push Not at hsyntax
    obtain ⟨-, hread, hend⟩ := hsyntax
    obtain ⟨v, hlit⟩ := literal_of_strtoul 32 hread hend
    -- a literal that is read to its end is out of range
    have hover : 2 ^ 32 ≤ v := by
      by_contra hlt
      exact h ⟨v, hlit, by unfold UINT_MAX; omega⟩
    have herange : (strtoul 32 token).erange = true := by
      rw [strtoul_of_literal 32 hlit, if_pos hover]
    rw [if_pos (.inl herange)]

/-! ### Unsigned 32-bit literals -/

/-- `parse_u32` does what the protocol promises for this token: it takes
    unsigned 32-bit literals for their values, and nothing else. -/
def ParsesExactly (token : List Byte) : Prop :=
  ∀ out, ((parse_u32 token out).1 = true ↔ ∃ v, Literal token v ∧ v ≤ UINT_MAX) ∧
    (∀ v, Literal token v → v ≤ UINT_MAX → parse_u32 token out = (true, BitVec.ofNat 32 v)) ∧
    ((parse_u32 token out).1 = false → (parse_u32 token out).2 = out)

/-- A literal in range behind white space or a sign. -/
def Decorated (token : List Byte) : Prop :=
  ∃ pre lit v, Decoration pre ∧ token = pre ++ lit ∧ Literal lit v ∧ v ≤ UINT_MAX

theorem unsigned_part_literal {token : List Byte} {v : Nat} (h : Literal token v) :
    unsigned_part token = token ∧ is_negative token = false := by
  have hparts := @unsigned_part_append [] [] token v (by simp) (.inl rfl) h
  refine ⟨hparts.1, ?_⟩
  rw [← Bool.not_eq_true]
  intro hneg
  exact absurd (hparts.2.mp hneg) (by decide)

theorem parse_u32_of_literal {token : List Byte} {v : Nat} (h : Literal token v)
    (hv : v ≤ UINT_MAX) (out : Word) : parse_u32 token out = (true, BitVec.ofNat 32 v) := by
  obtain ⟨hpart, hneg⟩ := unsigned_part_literal h
  have hpart' : Literal (unsigned_part token) v := by rwa [hpart]
  rw [parse_u32_literal hpart' hv, hneg]
  rfl

/-- `parse_u32` succeeds on literals, bare or decorated. -/
theorem parse_u32_accepts_iff (token : List Byte) (out : Word) :
    (parse_u32 token out).1 = true ↔
      (∃ v, Literal token v ∧ v ≤ UINT_MAX) ∨ Decorated token := by
  constructor
  · intro hacc
    by_contra hnot
    push Not at hnot
    obtain ⟨hbare, hdec⟩ := hnot
    have hnone : ¬ ∃ v, Literal (unsigned_part token) v ∧ v ≤ UINT_MAX := by
      intro hv
      obtain ⟨v, hlit, hle⟩ := hv
      rcases (unsigned_part_iff hlit).mp rfl with hself | ⟨pre, hpre, hself⟩
      · rw [← hself] at hlit
        exact absurd hle (Nat.not_le_of_lt (hbare v hlit))
      · exact hdec ⟨pre, _, v, hpre, hself, hlit, hle⟩
    rw [parse_u32_rejects hnone] at hacc
    exact Bool.false_ne_true hacc
  · intro hlit
    rcases hlit with ⟨v, hlit, hle⟩ | ⟨pre, lit, v, hpre, rfl, hlit, hle⟩
    · rw [parse_u32_of_literal hlit hle]
    · have hpart := (unsigned_part_iff hlit).mpr (.inr ⟨pre, hpre, rfl⟩)
      have hlit' : Literal (unsigned_part (pre ++ lit)) v := by rwa [hpart]
      rw [parse_u32_literal hlit' hle]

/-- A decorated literal is no literal. -/
theorem not_literal_of_decorated {token : List Byte} (h : Decorated token) (v : Nat) :
    ¬ Literal token v := by
  intro hlit
  obtain ⟨pre, lit, v', hpre, rfl, hlit', -⟩ := h
  have hpart := (unsigned_part_iff hlit').mpr (.inr ⟨pre, hpre, rfl⟩)
  have hself : pre ++ lit = lit := (unsigned_part_literal hlit).1.symm.trans hpart
  exact hpre.1 (by simpa using hself)

/-- The parser keeps its promise exactly for the tokens that are not a
    literal in range behind white space or a sign. -/
theorem parse_u32_exact_iff (token : List Byte) : ParsesExactly token ↔ ¬ Decorated token := by
  constructor
  · intro hexact hdec
    obtain ⟨v, hlit, -⟩ := (hexact 0#32).1.mp ((parse_u32_accepts_iff token 0#32).mpr (.inr hdec))
    exact not_literal_of_decorated hdec v hlit
  · intro hbare out
    refine ⟨?_, ?_, ?_⟩
    · rw [parse_u32_accepts_iff]
      exact or_iff_left hbare
    · intro v hlit hle
      exact parse_u32_of_literal hlit hle out
    · intro hfail
      have hnone : ¬ ∃ v, Literal (unsigned_part token) v ∧ v ≤ UINT_MAX := by
        intro hv
        obtain ⟨v, hlit, hle⟩ := hv
        rw [parse_u32_literal hlit hle] at hfail
        exact Bool.false_ne_true hfail.symm
      rw [parse_u32_rejects hnone]

/-- `-4294967295` is taken for 1. -/
theorem parse_u32_negative :
    ¬ ∀ token : List Byte, token ≠ [] → (∀ c ∈ token, is_delim c = false) →
      ParsesExactly token := by
  intro h
  have hexact := h (ascii "-4294967295") (by decide) (by decide)
  obtain ⟨v, hlit, -⟩ := (hexact 0#32).1.mp (by decide +kernel)
  obtain ⟨d, ds, heq, hd⟩ := CString.literal_head hlit
  obtain rfl : 45#8 = d := (List.cons.inj heq).1
  exact absurd hd (by decide)

end Firmware

end RiscvWorker
