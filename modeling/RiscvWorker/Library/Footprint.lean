import Mathlib.Data.Set.Function
import RiscvWorker.Library.WordArray

/-! # Footprints

  Two memories that are equal on a set of addresses: a load from this set
  cannot tell them apart, and a store of the same value makes them equal on
  the stored bytes, too.
-/

namespace ByteMemory

/-- The `n` addresses from `a` on. -/
def bytes (a : Word) (n : Nat) : Set Word := {b | ∃ k, k < n ∧ b = a + BitVec.ofNat 32 k}

theorem mem_bytes {a : Word} {n k : Nat} (hk : k < n) : a + BitVec.ofNat 32 k ∈ bytes a n :=
  ⟨k, hk, rfl⟩

theorem bytes_zero (a : Word) : bytes a 0 = ∅ := by
  ext b
  simp [bytes]

theorem bytes_succ (a : Word) (n : Nat) :
    bytes a (n + 1) = insert (a + BitVec.ofNat 32 n) (bytes a n) := by
  ext b
  rw [Set.mem_insert_iff]
  constructor
  · rintro ⟨k, hk, rfl⟩
    rcases Nat.lt_succ_iff_lt_or_eq.mp hk with hlt | rfl
    · exact .inr (mem_bytes hlt)
    · exact .inl rfl
  · rintro (rfl | ⟨k, hk, rfl⟩)
    · exact mem_bytes (Nat.lt_succ_self n)
    · exact mem_bytes (Nat.lt_succ_of_lt hk)

theorem union_bytes_zero (S : Set Word) (a : Word) : S ∪ bytes a 0 = S := by
  rw [bytes_zero, Set.union_empty]

theorem union_bytes_succ (S : Set Word) (a : Word) (n : Nat) :
    S ∪ bytes a (n + 1) = insert (a + BitVec.ofNat 32 n) (S ∪ bytes a n) := by
  rw [bytes_succ, Set.union_insert]

/-- One word more. -/
theorem bytes_word (base : Word) (n : Nat) :
    bytes base (4 * (n + 1)) = bytes base (4 * n) ∪ bytes (word_addr base n) 4 := by
  ext b
  constructor
  · rintro ⟨k, hk, rfl⟩
    by_cases hlt : k < 4 * n
    · exact .inl (mem_bytes hlt)
    · refine .inr ⟨k - 4 * n, by omega, ?_⟩
      rw [word_addr, BitVec.add_assoc, ← BitVec.ofNat_add, Nat.add_sub_cancel' (by omega)]
  · rintro (⟨k, hk, rfl⟩ | ⟨k, hk, rfl⟩)
    · exact mem_bytes (by omega)
    · refine ⟨4 * n + k, by omega, ?_⟩
      rw [word_addr, BitVec.add_assoc, ← BitVec.ofNat_add]

/-! ### Memories that agree -/

section agree
variable {m m' : Memory} {S : Set Word} {a : Word}

theorem load_byte_congr (h : Set.EqOn m m' (bytes a 1)) : m a = m' a := by
  have h0 := h (mem_bytes (k := 0) (by decide))
  simpa using h0

theorem load_half_congr (h : Set.EqOn m m' (bytes a 2)) : load_half m a = load_half m' a := by
  have h0 := h (mem_bytes (k := 0) (by decide))
  have h1 := h (mem_bytes (k := 1) (by decide))
  unfold load_half
  rw [show m a = m' a by simpa using h0, show m (a + 1#32) = m' (a + 1#32) from h1]

theorem load_word_congr (h : Set.EqOn m m' (bytes a 4)) : load_word m a = load_word m' a := by
  apply word_ext
  intro k hk
  unfold load_word
  rw [lane_word_of _ hk, lane_word_of _ hk, h (mem_bytes hk)]

variable (h : Set.EqOn m m' S)
include h

theorem set_congr (v : Byte) : Set.EqOn (set m a v) (set m' a v) (insert a S) := by
  intro b hb
  unfold set
  by_cases hba : b = a
  · rw [if_pos hba, if_pos hba]
  · rw [if_neg hba, if_neg hba]
    exact h (hb.resolve_left hba)

theorem store_byte_congr (v : Word) :
    Set.EqOn (store_byte m a v) (store_byte m' a v) (S ∪ bytes a 1) := by
  have h0 := set_congr (a := a) h (lane v 0)
  rwa [union_bytes_succ, union_bytes_zero, BitVec.add_zero]

theorem store_half_congr (v : Word) :
    Set.EqOn (store_half m a v) (store_half m' a v) (S ∪ bytes a 2) := by
  have h1 := set_congr (a := a + 1#32) (set_congr (a := a) h (lane v 0)) (lane v 1)
  rwa [union_bytes_succ, union_bytes_succ, union_bytes_zero, BitVec.add_zero]

theorem store_word_congr (v : Word) :
    Set.EqOn (store_word m a v) (store_word m' a v) (S ∪ bytes a 4) := by
  have h1 := set_congr (a := a + 1#32) (set_congr (a := a) h (lane v 0)) (lane v 1)
  have h3 := set_congr (a := a + 3#32) (set_congr (a := a + 2#32) h1 (lane v 2)) (lane v 3)
  rwa [union_bytes_succ, union_bytes_succ, union_bytes_succ, union_bytes_succ, union_bytes_zero,
    BitVec.add_zero]

theorem store_words_congr (base : Word) (ws : List Word) :
    Set.EqOn (store_words m base ws) (store_words m' base ws) (S ∪ bytes base (4 * ws.length)) := by
  induction ws using List.reverseRecOn with
  | nil =>
    rw [List.length_nil, Nat.mul_zero, union_bytes_zero]
    exact h
  | append_singleton ws w ih =>
    rw [store_words_concat, store_words_concat, List.length_append, List.length_singleton,
      bytes_word, ← Set.union_assoc]
    exact store_word_congr ih w

end agree

/-! ### Frames -/

section frame
variable {a b : Word} (m : Memory) (v : Word)

theorem store_byte_frame (h : b ∉ bytes a 1) : store_byte m a v b = m b := by
  have hne : b ≠ a := fun hb => h ⟨0, by decide, by rw [hb, BitVec.add_zero]⟩
  exact if_neg hne

theorem store_word_frame (h : b ∉ bytes a 4) : store_word m a v b = m b := by
  have hne : ∀ k, k < 4 → b ≠ a + BitVec.ofNat 32 k := fun k hk hb => h ⟨k, hk, hb⟩
  have h0 : b ≠ a := by simpa using hne 0 (by decide)
  unfold store_word set
  rw [if_neg (hne 3 (by decide)), if_neg (hne 2 (by decide)), if_neg (hne 1 (by decide)),
    if_neg h0]

end frame

end ByteMemory
