import Mathlib.Data.Set.Function

/-! # Chains of build stages

  Each stage makes an artifact from its inputs and the artifact of the stage
  below. A fingerprint of a stage is a digest of its text, which ends in the
  fingerprint of the stage below: equal fingerprints mean equal texts all the
  way down, as long as the digest has no collisions on the texts at hand.
-/

namespace BuildChain

universe u v w

/-! ### Artifacts -/

section artifacts
variable {Input : Type u} {Artifact : Type v}
  (tool : Nat → Input → Option Artifact → Artifact)

/-- The artifacts of a build from nothing. -/
def fresh (inputs : Nat → Input) : Nat → Artifact
  | 0 => tool 0 (inputs 0) none
  | n + 1 => tool (n + 1) (inputs (n + 1)) (some (fresh inputs n))

/-- An artifact depends on the inputs of its stage and of those below. -/
theorem fresh_congr {inputs inputs' : Nat → Input} {n : Nat}
    (h : ∀ m, m ≤ n → inputs m = inputs' m) : fresh tool inputs n = fresh tool inputs' n := by
  induction n with
  | zero =>
    show tool 0 (inputs 0) none = tool 0 (inputs' 0) none
    rw [h 0 (Nat.le_refl 0)]
  | succ n ih =>
    have hbelow := ih (fun m hm => h m (Nat.le_succ_of_le hm))
    show tool (n + 1) (inputs (n + 1)) (some (fresh tool inputs n)) =
      tool (n + 1) (inputs' (n + 1)) (some (fresh tool inputs' n))
    rw [hbelow, h (n + 1) (Nat.le_refl (n + 1))]

end artifacts

/-! ### Fingerprints -/

section fingerprints
variable {α : Type u} {Digest : Type v} (digest : List α → Digest) (encode : Digest → List α)

/-- What is digested for a stage: its own text, and the fingerprint of the
    stage below. -/
def text (own : Nat → List α) : Nat → List α
  | 0 => own 0
  | n + 1 => own (n + 1) ++ encode (digest (text own n))

/-- Equal texts of a stage are equal texts of all stages below, where the
    digest has no collisions. -/
theorem text_eq_below {width : Nat} (hwidth : ∀ d, (encode d).length = width)
    (hencode : Function.Injective encode) {S : Set (List α)} (hdigest : Set.InjOn digest S)
    {own own' : Nat → List α} {n : Nat}
    (hS : ∀ m, m ≤ n → text digest encode own m ∈ S)
    (hS' : ∀ m, m ≤ n → text digest encode own' m ∈ S)
    (h : text digest encode own n = text digest encode own' n) :
    ∀ m, m ≤ n → own m = own' m := by
  induction n with
  | zero =>
    intro m hm
    obtain rfl := Nat.le_zero.mp hm
    exact h
  | succ n ih =>
    -- the fingerprint below is the end of the text, of a fixed length
    have hlen : (encode (digest (text digest encode own n))).length =
        (encode (digest (text digest encode own' n))).length := by
      rw [hwidth, hwidth]
    obtain ⟨hown, henc⟩ := List.append_inj' h hlen
    have hbelow : text digest encode own n = text digest encode own' n :=
      hdigest (hS n (Nat.le_succ n)) (hS' n (Nat.le_succ n)) (hencode henc)
    intro m hm
    rcases Nat.eq_or_lt_of_le hm with rfl | hlt
    · exact hown
    · exact ih (fun j hj => hS j (Nat.le_succ_of_le hj))
        (fun j hj => hS' j (Nat.le_succ_of_le hj)) hbelow m (Nat.lt_succ_iff.mp hlt)

end fingerprints

/-! ### Cells -/

/-- A cell that is empty at first and changes only when it is written holds
    what was written last. -/
theorem last_write {V : Type w} {cell : Nat → Option V} {write : Nat → Prop} {value : Nat → V}
    (hinit : cell 0 = none) (hwrite : ∀ k, write k → cell (k + 1) = some (value k))
    (hkeep : ∀ k, ¬ write k → cell (k + 1) = cell k) {k : Nat} {v : V} (h : cell k = some v) :
    ∃ i, i < k ∧ write i ∧ value i = v ∧ ∀ m, i < m → m < k → ¬ write m := by
  induction k with
  | zero =>
    rw [hinit] at h
    cases h
  | succ k ih =>
    by_cases hw : write k
    · rw [hwrite k hw, Option.some.injEq] at h
      refine ⟨k, Nat.lt_succ_self k, hw, h, ?_⟩
      intro m hkm hmk
      omega
    · rw [hkeep k hw] at h
      obtain ⟨i, hik, hwi, hv, hnone⟩ := ih h
      refine ⟨i, Nat.lt_succ_of_lt hik, hwi, hv, ?_⟩
      intro m him hmk
      rcases Nat.eq_or_lt_of_le (Nat.lt_succ_iff.mp hmk) with rfl | hlt
      · exact hw
      · exact hnone m him hlt

end BuildChain
