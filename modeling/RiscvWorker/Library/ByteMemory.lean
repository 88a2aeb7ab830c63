import RiscvWorker.Library.AxiLite

/-! # Byte-addressed little-endian memory

  A memory is a function from 32-bit addresses to bytes. Two views of it:
  a processor's loads and stores of bytes, half words and words at byte
  addresses, and a data bus that moves whole words with byte strobes. The
  lemmas relate the two for naturally aligned accesses.
-/

namespace ByteMemory

export AxiLite (Word)

abbrev Byte : Type := BitVec 8

abbrev Memory : Type := Word → Byte

/-! ### Addresses -/

/-- The address of the word that contains byte `a`. -/
def align (a : Word) : Word := a.extractLsb' 2 30 ++ 0b00#2

/-- The position of byte `a` in its word. -/
def offset (a : Word) : Nat := a.toNat % 4

theorem align_toNat (a : Word) : (align a).toNat = a.toNat / 4 * 4 := by
  have ha := a.isLt
  simp only [align, BitVec.toNat_append, BitVec.extractLsb'_toNat, BitVec.toNat_ofNat,
    Nat.shiftRight_eq_div_pow, Nat.shiftLeft_eq, Nat.zero_mod, Nat.or_zero]
  omega

theorem offset_lt (a : Word) : offset a < 4 := Nat.mod_lt _ (by decide)

theorem align_eq_self {a : Word} (h : a.toNat % 4 = 0) : align a = a := by
  apply BitVec.eq_of_toNat_eq
  rw [align_toNat]
  omega

/-- Two bytes of one word at the same position are the same byte. -/
theorem eq_iff_align_offset (a b : Word) : b = a ↔ align b = align a ∧ offset b = offset a := by
  constructor
  · rintro rfl
    exact ⟨rfl, rfl⟩
  · intro hboth
    obtain ⟨hal, hof⟩ := hboth
    have hn := congrArg BitVec.toNat hal
    rw [align_toNat, align_toNat] at hn
    unfold offset at hof
    apply BitVec.eq_of_toNat_eq
    omega

theorem align_add_offset (a : Word) : align a + BitVec.ofNat 32 (offset a) = a := by
  apply BitVec.eq_of_toNat_eq
  have ha := a.isLt
  rw [BitVec.toNat_add, align_toNat, BitVec.toNat_ofNat, offset]
  omega

theorem extract_offset (a : Word) : (a.extractLsb' 0 2).toNat = offset a := by
  simp [offset]

/-! ### Words and their bytes -/

/-- Byte `k` of a word. -/
def lane (d : Word) (k : Nat) : Byte := d.extractLsb' (k * 8) 8

/-- The word with byte `f k` at position `k`. -/
def word_of (f : Nat → Byte) : Word := f 3 ++ f 2 ++ f 1 ++ f 0

theorem lt_four_cases {k : Nat} (hk : k < 4) : k = 0 ∨ k = 1 ∨ k = 2 ∨ k = 3 := by omega

theorem getLsbD_word_of (f : Nat → Byte) {j : Nat} (hj : j < 32) :
    (word_of f).getLsbD j = (f (j / 8)).getLsbD (j % 8) := by
  have hcases : j / 8 = 0 ∨ j / 8 = 1 ∨ j / 8 = 2 ∨ j / 8 = 3 := by omega
  unfold word_of
  rw [BitVec.getLsbD_append, BitVec.getLsbD_append, BitVec.getLsbD_append]
  rcases hcases with h | h | h | h <;> rw [h]
  · rw [if_pos (by omega), show j % 8 = j from by omega]
  · rw [if_neg (by omega), if_pos (by omega), show j % 8 = j - 8 from by omega]
  · rw [if_neg (by omega), if_neg (by omega), if_pos (by omega),
      show j % 8 = j - 8 - 8 from by omega]
  · rw [if_neg (by omega), if_neg (by omega), if_neg (by omega),
      show j % 8 = j - 8 - 8 - 8 from by omega]

theorem getLsbD_lane (d : Word) (k : Nat) {j : Nat} (hj : j < 8) :
    (lane d k).getLsbD j = d.getLsbD (k * 8 + j) := by
  simp [lane, hj]

theorem lane_word_of (f : Nat → Byte) {k : Nat} (hk : k < 4) : lane (word_of f) k = f k := by
  apply BitVec.eq_of_getLsbD_eq
  intro j hj
  rw [getLsbD_lane _ _ hj, getLsbD_word_of f (by omega), show (k * 8 + j) / 8 = k from by omega,
    show (k * 8 + j) % 8 = j from by omega]

/-- Two words with the same four bytes are equal. -/
theorem word_ext {d d' : Word} (h : ∀ k, k < 4 → lane d k = lane d' k) : d = d' := by
  apply BitVec.eq_of_getLsbD_eq
  intro j hj
  have hb : (lane d (j / 8)).getLsbD (j % 8) = (lane d' (j / 8)).getLsbD (j % 8) := by
    rw [h (j / 8) (by omega)]
  rwa [getLsbD_lane _ _ (Nat.mod_lt _ (by decide)), getLsbD_lane _ _ (Nat.mod_lt _ (by decide)),
    show j / 8 * 8 + j % 8 = j from by omega] at hb

/-- Moving a word down by `n` bytes. -/
theorem lane_ushiftRight (d : Word) (n k : Nat) :
    lane (d >>> (8 * n)) k = if k + n < 4 then lane d (k + n) else 0#8 := by
  apply BitVec.eq_of_getLsbD_eq
  intro j hj
  rw [getLsbD_lane _ _ hj, BitVec.getLsbD_ushiftRight]
  split
  · rw [getLsbD_lane _ _ hj]
    congr 1
    omega
  -- what comes in from above the word is zero
  · rw [BitVec.getLsbD_of_ge _ _ (by omega), BitVec.getLsbD_zero]

/-- Moving a word up by `n` bytes. -/
theorem lane_shiftLeft (d : Word) (n k : Nat) (hk : k < 4) :
    lane (d <<< (8 * n)) k = if n ≤ k then lane d (k - n) else 0#8 := by
  apply BitVec.eq_of_getLsbD_eq
  intro j hj
  rw [getLsbD_lane _ _ hj, BitVec.getLsbD_shiftLeft]
  split
  · rw [getLsbD_lane _ _ hj, show k * 8 + j - 8 * n = (k - n) * 8 + j from by omega]
    have h1 : k * 8 + j < 32 := by omega
    have h2 : ¬ k * 8 + j < 8 * n := by omega
    simp [h1, h2]
  · have h2 : k * 8 + j < 8 * n := by omega
    simp [h2]

/-! ### Loads and stores at byte addresses -/

def set (m : Memory) (a : Word) (v : Byte) : Memory := fun b => if b = a then v else m b

def load_half (m : Memory) (a : Word) : BitVec 16 := m (a + 1#32) ++ m a

def load_word (m : Memory) (a : Word) : Word := word_of fun k => m (a + BitVec.ofNat 32 k)

def store_byte (m : Memory) (a : Word) (v : Word) : Memory := set m a (lane v 0)

def store_half (m : Memory) (a : Word) (v : Word) : Memory :=
  set (set m a (lane v 0)) (a + 1#32) (lane v 1)

def store_word (m : Memory) (a : Word) (v : Word) : Memory :=
  set (set (set (set m a (lane v 0)) (a + 1#32) (lane v 1)) (a + 2#32) (lane v 2))
    (a + 3#32) (lane v 3)

/-! ### The bus: whole words and byte strobes -/

/-- The word the bus returns for address `a`: its low two bits are ignored. -/
def read_word (m : Memory) (a : Word) : Word := load_word m (align a)

/-- A bus write: the strobed bytes of the word that contains `a` change. -/
def write_word (m : Memory) (a d : Word) (strb : BitVec 4) : Memory :=
  -- a byte looks at the strobe of its own lane
  fun b => if align b = align a ∧ strb.getLsbD (offset b) then lane d (offset b) else m b

theorem read_word_eq_load_word {m : Memory} {a : Word} (h : a.toNat % 4 = 0) :
    read_word m a = load_word m a := by
  unfold read_word
  rw [align_eq_self h]

/-- A byte of memory is a lane of the word the bus returns for its address. -/
theorem lane_read_word (m : Memory) (a : Word) : lane (read_word m a) (offset a) = m a := by
  unfold read_word load_word
  rw [lane_word_of _ (offset_lt a), align_add_offset]

/-- The second byte of an aligned half word is the next lane. -/
theorem lane_read_word_succ (m : Memory) {a : Word} (h : a.toNat % 2 = 0) :
    lane (read_word m a) (offset a + 1) = m (a + 1#32) := by
  have hlt : offset a + 1 < 4 := by unfold offset; omega
  unfold read_word load_word
  rw [lane_word_of _ hlt]
  congr 1
  apply BitVec.eq_of_toNat_eq
  have ha := a.isLt
  rw [BitVec.toNat_add, BitVec.toNat_add, align_toNat, BitVec.toNat_ofNat, BitVec.toNat_ofNat,
    offset]
  omega

/-! ### Aligned stores are strobed writes

  A strobed write equals a store when the strobes select exactly the bytes
  of the store and the data carries them in their lanes.
-/

theorem write_word_eq_store_byte (m : Memory) (a v d : Word) (strb : BitVec 4)
    (hstrb : ∀ k, k < 4 → (strb.getLsbD k ↔ k = offset a))
    (hd : lane d (offset a) = lane v 0) :
    write_word m a d strb = store_byte m a v := by
  funext b
  unfold write_word store_byte set
  by_cases hb : b = a
  · subst hb
    rw [if_pos ⟨rfl, (hstrb _ (offset_lt b)).mpr rfl⟩, if_pos rfl, hd]
  · rw [if_neg hb, if_neg]
    intro ⟨hal, hs⟩
    exact hb ((eq_iff_align_offset a b).mpr ⟨hal, (hstrb _ (offset_lt b)).mp hs⟩)

theorem offset_succ {a : Word} (h : a.toNat % 2 = 0) :
    align (a + 1#32) = align a ∧ offset (a + 1#32) = offset a + 1 := by
  have ha := a.isLt
  -- an even address is not the last one, so the sum does not wrap
  have hn : (a + 1#32).toNat = a.toNat + 1 := by
    rw [BitVec.toNat_add, BitVec.toNat_ofNat]; omega
  constructor
  · apply BitVec.eq_of_toNat_eq
    rw [align_toNat, align_toNat, hn]
    omega
  · rw [offset, offset, hn]; omega

theorem write_word_eq_store_half (m : Memory) (a v d : Word) (strb : BitVec 4)
    (ha : a.toNat % 2 = 0)
    (hstrb : ∀ k, k < 4 → (strb.getLsbD k ↔ k = offset a ∨ k = offset a + 1))
    (hd0 : lane d (offset a) = lane v 0) (hd1 : lane d (offset a + 1) = lane v 1) :
    write_word m a d strb = store_half m a v := by
  obtain ⟨hal1, hof1⟩ := offset_succ ha
  funext b
  unfold write_word store_half set
  -- `b` is the upper byte of the store, the lower one, or neither
  by_cases hb1 : b = a + 1#32
  · subst hb1
    rw [if_pos ⟨hal1, (hstrb _ (offset_lt _)).mpr (Or.inr hof1)⟩, if_pos rfl, hof1, hd1]
  · rw [if_neg hb1]
    by_cases hb : b = a
    · subst hb
      rw [if_pos ⟨rfl, (hstrb _ (offset_lt b)).mpr (Or.inl rfl)⟩, if_pos rfl, hd0]
    · rw [if_neg hb, if_neg]
      intro ⟨hal, hs⟩
      rcases (hstrb _ (offset_lt b)).mp hs with h | h
      · exact hb ((eq_iff_align_offset a b).mpr ⟨hal, h⟩)
      · exact hb1 ((eq_iff_align_offset _ b).mpr ⟨hal.trans hal1.symm, h.trans hof1.symm⟩)

theorem write_word_eq_store_word (m : Memory) (a v : Word) (ha : a.toNat % 4 = 0) :
    write_word m a v 0b1111#4 = store_word m a v := by
  have hlt := a.isLt
  have haddr : ∀ k, k < 4 → (a + BitVec.ofNat 32 k).toNat = a.toNat + k := by
    intro k hk
    rw [BitVec.toNat_add, BitVec.toNat_ofNat]; omega
  funext b
  have hall : (0b1111#4).getLsbD (offset b) = true := by
    rcases lt_four_cases (offset_lt b) with h | h | h | h <;> rw [h] <;> rfl
  -- byte `b` lies in the word iff it is one of the four bytes of the store
  have hmem : ∀ k, k < 4 → (b = a + BitVec.ofNat 32 k ↔ align b = align a ∧ offset b = k) := by
    intro k hk
    have hk' := haddr k hk
    rw [eq_iff_align_offset]
    have h1 : align (a + BitVec.ofNat 32 k) = align a := by
      apply BitVec.eq_of_toNat_eq
      rw [align_toNat, align_toNat, hk']; omega
    have h2 : offset (a + BitVec.ofNat 32 k) = k := by rw [offset, hk']; omega
    rw [h1, h2]
  have h0 : b = a ↔ align b = align a ∧ offset b = 0 := by
    simpa using hmem 0 (by decide)
  have h1 := hmem 1 (by decide)
  have h2 := hmem 2 (by decide)
  have h3 := hmem 3 (by decide)
  simp only [write_word, store_word, set, hall, and_true, h0, h1, h2, h3]
  by_cases hal : align b = align a
  · rcases lt_four_cases (offset_lt b) with h | h | h | h <;> simp [hal, h]
  · simp [hal]

end ByteMemory
