import RiscvWorker.Library.WordArray

/-! # Moved memories

  Two copies of the same words, one of them `base` bytes further up. A word
  that holds an address may be greater in the copy than in the original; by
  how much is its displacement. Words without a displacement are not known to
  be the same in any sense.
-/

namespace ByteMemory

/-! ### Addresses -/

section addresses
variable (a : Word) {base : Word} (hbase : base.toNat % 4 = 0)
include hbase

theorem align_add : align (a + base) = align a + base := by
  apply BitVec.eq_of_toNat_eq
  have ha := a.isLt
  have hb := base.isLt
  rw [align_toNat, BitVec.toNat_add, BitVec.toNat_add, align_toNat]
  omega

theorem offset_add : offset (a + base) = offset a := by
  have ha := a.isLt
  have hb := base.isLt
  rw [offset, offset, BitVec.toNat_add]
  omega

theorem mod_add {n : Nat} (hn : n ∣ 4) : (a + base).toNat % n = a.toNat % n := by
  have hsize : n ∣ 2 ^ 32 := hn.trans ⟨2 ^ 30, rfl⟩
  have hzero : base.toNat % n = 0 :=
    Nat.mod_eq_zero_of_dvd (hn.trans (Nat.dvd_of_mod_eq_zero hbase))
  rw [BitVec.toNat_add, Nat.mod_mod_of_dvd _ hsize, Nat.add_mod, hzero, Nat.add_zero, Nat.mod_mod]

end addresses

/-! ### Single bytes of a word -/

section bytes
variable {m : Memory} {a w : Word} {v : Byte}

theorem lane_load_word_set {k : Nat} (hk : k < 4) :
    lane (load_word (set m a v) w) k =
      if w + BitVec.ofNat 32 k = a then v else lane (load_word m w) k := by
  unfold load_word
  rw [lane_word_of _ hk, lane_word_of _ hk]
  rfl

theorem load_word_set_other (hw : w.toNat % 4 = 0) (h : align a ≠ w) :
    load_word (set m a v) w = load_word m w := by
  apply word_ext
  intro k hk
  rw [lane_load_word_set hk, if_neg]
  rintro rfl
  obtain ⟨hal, -⟩ := WordStore.word_byte w hk
  rw [align_eq_self hw] at hal
  exact h hal

end bytes

/-! ### The two copies -/

/-- The words that `D` knows are the same up to their displacements. -/
structure Moved (base : Word) (D : Word → Option Word) (m m' : Memory) : Prop where
  aligned : ∀ a d, D a = some d → a.toNat % 4 = 0
  word : ∀ a d, D a = some d → load_word m' (a + base) = load_word m a + d

namespace Moved

variable {base : Word} {D : Word → Option Word} {m m' : Memory} {a : Word}
  (hbase : base.toNat % 4 = 0) (h : Moved base D m m')
include hbase h

/-- A bus word without a displacement. -/
theorem read_word_eq (ha : D (align a) = some 0#32) : read_word m' (a + base) = read_word m a := by
  unfold read_word
  rw [align_add a hbase, h.word _ _ ha, BitVec.add_zero]

theorem byte (ha : D (align a) = some 0#32) : m' (a + base) = m a := by
  rw [← lane_read_word m' (a + base), ← lane_read_word m a, h.read_word_eq hbase ha,
    offset_add a hbase]

theorem half (ha : D (align a) = some 0#32) (heven : a.toNat % 2 = 0) :
    load_half m' (a + base) = load_half m a := by
  have heven' : (a + base).toNat % 2 = 0 := by
    rw [mod_add a hbase (by decide)]
    exact heven
  unfold load_half
  rw [h.byte hbase ha, ← lane_read_word_succ m heven, ← lane_read_word_succ m' heven',
    h.read_word_eq hbase ha, offset_add a hbase]

/-- A byte of a word without a displacement is written. -/
theorem set (ha : D (align a) = some 0#32) (v : Byte) :
    Moved base D (ByteMemory.set m a v) (ByteMemory.set m' (a + base) v) where
  aligned := h.aligned
  word w d hw := by
    have hal := h.aligned w d hw
    have hal' : (w + base).toNat % 4 = 0 := by
      rw [mod_add w hbase (by decide)]
      exact hal
    have hword := h.word w d hw
    by_cases hsame : align a = w
    · -- the other bytes of the word are the same in both copies
      obtain rfl : 0#32 = d := by
        rw [hsame, hw] at ha
        exact (Option.some.inj ha).symm
      rw [BitVec.add_zero] at hword ⊢
      apply word_ext
      intro k hk
      have hcomm : w + base + BitVec.ofNat 32 k = w + BitVec.ofNat 32 k + base := by
        rw [BitVec.add_assoc, BitVec.add_comm base, BitVec.add_assoc]
      rw [lane_load_word_set hk, lane_load_word_set hk, hword, hcomm]
      simp only [BitVec.add_left_inj]
    · have hother : align (a + base) ≠ w + base := by
        rw [align_add a hbase]
        exact fun hc => hsame ((BitVec.add_left_inj base).mp hc)
      rw [load_word_set_other hal hsame, load_word_set_other hal' hother, hword]

theorem store_byte (ha : D (align a) = some 0#32) (v : Word) :
    Moved base D (ByteMemory.store_byte m a v) (ByteMemory.store_byte m' (a + base) v) :=
  h.set hbase ha _

theorem store_half (ha : D (align a) = some 0#32) (heven : a.toNat % 2 = 0) (v : Word) :
    Moved base D (ByteMemory.store_half m a v) (ByteMemory.store_half m' (a + base) v) := by
  have hupper : D (align (a + 1#32)) = some 0#32 := by
    rw [(offset_succ heven).1]
    exact ha
  have hcomm : a + base + 1#32 = a + 1#32 + base := by
    rw [BitVec.add_assoc, BitVec.add_comm base, BitVec.add_assoc]
  unfold ByteMemory.store_half
  rw [hcomm]
  exact (h.set hbase ha _).set hbase hupper _

/-- A whole word is written, with any displacement. -/
theorem store_word (ha : a.toNat % 4 = 0) (v d : Word) :
    Moved base (Function.update D a (some d)) (ByteMemory.store_word m a v)
      (ByteMemory.store_word m' (a + base) (v + d)) where
  aligned w e hw := by
    by_cases hwa : w = a
    · rw [hwa]
      exact ha
    · rw [Function.update_of_ne hwa] at hw
      exact h.aligned w e hw
  word w e hw := by
    have ha' : (a + base).toNat % 4 = 0 := by
      rw [mod_add a hbase (by decide)]
      exact ha
    by_cases hwa : w = a
    · subst hwa
      obtain rfl : d = e := by simpa using hw
      rw [load_word_store_word _ _ ha ha, load_word_store_word _ _ ha' ha', if_pos rfl, if_pos rfl]
    · rw [Function.update_of_ne hwa] at hw
      have hal := h.aligned w e hw
      have hal' : (w + base).toNat % 4 = 0 := by
        rw [mod_add w hbase (by decide)]
        exact hal
      have hne : w + base ≠ a + base := fun hc => hwa ((BitVec.add_left_inj base).mp hc)
      rw [load_word_store_word _ _ ha hal, load_word_store_word _ _ ha' hal', if_neg hwa, if_neg hne,
        h.word w e hw]

end Moved

end ByteMemory
