import Mathlib.Algebra.BigOperators.Group.List.Basic
import Mathlib.Algebra.Group.Action.Defs

/-! # Bit masks

  An operation on words that keeps some of the bits and flips some: clearing,
  setting, inverting and replacing bits are of this form. One after the other
  they are again of this form, so the masks are a monoid that acts on words.
-/

/-- The bits of `keep` stay and the others are cleared; then those of `flip`
    are inverted. -/
@[ext]
structure BitMask (w : Nat) where
  keep : BitVec w
  flip : BitVec w
  deriving DecidableEq

namespace BitMask

variable {w : Nat}

def apply (m : BitMask w) (v : BitVec w) : BitVec w := (v &&& m.keep) ^^^ m.flip

/-- First `m`, then `m'`. -/
def after (m' m : BitMask w) : BitMask w where
  keep := m.keep &&& m'.keep
  flip := (m.flip &&& m'.keep) ^^^ m'.flip

theorem xor_and (x y z : BitVec w) : (x ^^^ y) &&& z = (x &&& z) ^^^ (y &&& z) := by
  ext i hi
  simp only [BitVec.getElem_and, BitVec.getElem_xor]
  cases x[i] <;> cases y[i] <;> cases z[i] <;> rfl

theorem apply_after (m' m : BitMask w) (v : BitVec w) :
    (m'.after m).apply v = m'.apply (m.apply v) := by
  unfold apply after
  rw [xor_and, BitVec.and_assoc, BitVec.xor_assoc]

theorem after_assoc (m'' m' m : BitMask w) : (m''.after m').after m = m''.after (m'.after m) := by
  unfold after
  ext1
  · exact (BitVec.and_assoc _ _ _).symm
  · show (m.flip &&& (m'.keep &&& m''.keep)) ^^^ ((m'.flip &&& m''.keep) ^^^ m''.flip) = _
    rw [← BitVec.and_assoc, ← BitVec.xor_assoc, ← xor_and]

instance instMonoid : Monoid (BitMask w) where
  mul := after
  one := ⟨BitVec.allOnes w, 0#w⟩
  mul_assoc := after_assoc
  one_mul m := by
    show after _ m = m
    ext1
    · exact BitVec.and_allOnes
    · exact (BitVec.xor_zero).trans BitVec.and_allOnes
  mul_one m := by
    show after m _ = m
    ext1
    · exact BitVec.allOnes_and
    · show (0#w &&& m.keep) ^^^ m.flip = _
      rw [BitVec.zero_and, BitVec.zero_xor]

instance instMulAction : MulAction (BitMask w) (BitVec w) where
  smul := apply
  one_smul v := by
    show (v &&& BitVec.allOnes w) ^^^ 0#w = v
    rw [BitVec.and_allOnes, BitVec.xor_zero]
  mul_smul := apply_after

/-! ### The usual operations -/

variable (mask v : BitVec w)

def replace : BitMask w := ⟨0#w, mask⟩
def invert : BitMask w := ⟨BitVec.allOnes w, mask⟩
def set : BitMask w := ⟨~~~mask, mask⟩
def clear : BitMask w := ⟨~~~mask, 0#w⟩

theorem replace_smul : replace mask • v = mask := by
  show (v &&& 0#w) ^^^ mask = mask
  rw [BitVec.and_zero, BitVec.zero_xor]

theorem invert_smul : invert mask • v = v ^^^ mask := by
  show (v &&& BitVec.allOnes w) ^^^ mask = _
  rw [BitVec.and_allOnes]

theorem set_smul : set mask • v = v ||| mask := by
  show (v &&& ~~~mask) ^^^ mask = _
  ext i hi
  simp only [BitVec.getElem_and, BitVec.getElem_xor, BitVec.getElem_or, BitVec.getElem_not]
  cases v[i] <;> cases mask[i] <;> rfl

theorem clear_smul : clear mask • v = v &&& ~~~mask := by
  show (v &&& ~~~mask) ^^^ 0#w = _
  rw [BitVec.xor_zero]

/-! ### One after the other -/

/-- The masks of a list, its first one first. -/
def total (ms : List (BitMask w)) : BitMask w := ms.reverse.prod

theorem total_nil : total ([] : List (BitMask w)) = 1 := rfl

theorem total_concat (ms : List (BitMask w)) (m : BitMask w) :
    total (ms ++ [m]) = m * total ms := by
  unfold total
  rw [List.reverse_append, List.reverse_singleton, List.singleton_append, List.prod_cons]

end BitMask
