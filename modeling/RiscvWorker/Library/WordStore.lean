import RiscvWorker.Library.ByteMemory

/-! # Word memories with byte strobes

  A memory whose cells are words: a write names one cell and merges the
  strobed bytes of its data into it. Under a map from byte addresses to
  cells such a memory is a byte-addressed one, and where the map identifies
  exactly the addresses of one word, a write to a cell is a bus write.
-/

namespace WordStore

open ByteMemory

/-- One word for each cell. -/
abbrev Store (ι : Type) : Type := ι → Word

/-! ### Merging -/

/-- The strobed bytes of `d`, the others of `old`. -/
def merge (old d : Word) (strb : BitVec 4) : Word :=
  word_of fun k => if strb.getLsbD k then lane d k else lane old k

theorem lane_merge (old d : Word) (strb : BitVec 4) {k : Nat} (hk : k < 4) :
    lane (merge old d strb) k = if strb.getLsbD k then lane d k else lane old k :=
  lane_word_of _ hk

/-- Without strobes nothing is written. -/
theorem merge_zero (old d : Word) : merge old d 0#4 = old := by
  apply word_ext
  intro k hk
  rw [lane_merge _ _ _ hk]
  simp

/-! ### Bus words -/

/-- The bytes of a bus word. -/
theorem word_byte (a : Word) {k : Nat} (hk : k < 4) :
    align (align a + BitVec.ofNat 32 k) = align a ∧ offset (align a + BitVec.ofNat 32 k) = k := by
  have hn : (align a + BitVec.ofNat 32 k).toNat = a.toNat / 4 * 4 + k := by
    have ha := a.isLt
    rw [BitVec.toNat_add, align_toNat, BitVec.toNat_ofNat]
    omega
  constructor
  · apply BitVec.eq_of_toNat_eq
    rw [align_toNat, align_toNat, hn]
    omega
  · rw [offset, hn]
    omega

/-- A read after a write on the bus. -/
theorem read_word_write_word (m : Memory) (a b d : Word) (strb : BitVec 4) :
    read_word (write_word m a d strb) b =
      if align b = align a then merge (read_word m b) d strb else read_word m b := by
  apply word_ext
  intro k hk
  obtain ⟨hal, hof⟩ := word_byte b hk
  have hread : ∀ m' : Memory, lane (read_word m' b) k = m' (align b + BitVec.ofNat 32 k) := by
    intro m'
    rw [read_word, load_word, lane_word_of _ hk]
  rw [hread, write_word, hal, hof]
  by_cases h : align b = align a
  · rw [if_pos h, lane_merge _ _ _ hk, hread]
    simp [h]
  · rw [if_neg h, hread, if_neg]
    intro hboth
    exact h hboth.1

/-! ### The byte view -/

/-- The byte-addressed memory that `s` is, when `index a` is the cell of
    address `a`. -/
def bytes {ι : Type} (index : Word → ι) (s : Store ι) : Memory :=
  fun a => lane (s (index a)) (offset a)

/-- The bus word of an address is its cell. -/
theorem read_word_bytes {ι : Type} {index : Word → ι}
    (hindex : ∀ a b, align b = align a → index b = index a)
    (s : Store ι) (a : Word) : read_word (bytes index s) a = s (index a) := by
  apply word_ext
  intro k hk
  obtain ⟨hal, hof⟩ := word_byte a hk
  rw [read_word, load_word, lane_word_of _ hk, bytes, hindex _ _ hal, hof]

/-! ### Cells -/

section cells
variable {ι : Type} [DecidableEq ι]

/-- The memory after a strobed write to cell `i`. -/
def write (s : Store ι) (i : ι) (d : Word) (strb : BitVec 4) : Store ι :=
  fun j => if j = i then merge (s j) d strb else s j

@[simp] theorem write_self (s : Store ι) (i : ι) (d : Word) (strb : BitVec 4) :
    write s i d strb i = merge (s i) d strb := by
  simp [write]

theorem write_ne (s : Store ι) {i j : ι} (d : Word) (strb : BitVec 4) (h : j ≠ i) :
    write s i d strb j = s j := by
  simp [write, h]

theorem write_zero (s : Store ι) (i : ι) (d : Word) : write s i d 0#4 = s := by
  funext j
  by_cases hj : j = i
  · subst hj
    rw [write_self, merge_zero]
  · exact write_ne s d 0#4 hj

/-- A byte looks at the cell of the write and at its own strobe. -/
theorem bytes_write (index : Word → ι) (s : Store ι) (i : ι) (d : Word) (strb : BitVec 4)
    (b : Word) :
    bytes index (write s i d strb) b =
      if index b = i ∧ strb.getLsbD (offset b) then lane d (offset b) else bytes index s b := by
  unfold bytes
  by_cases hi : index b = i
  · rw [hi, write_self, lane_merge _ _ _ (offset_lt b)]
    simp
  · rw [write_ne s d strb hi, if_neg]
    intro h
    exact hi h.1

/-- A write to the cell of `a` is a bus write to `a`. -/
theorem bytes_write_index {index : Word → ι}
    (hindex : ∀ a b, index b = index a ↔ align b = align a)
    (s : Store ι) (a d : Word) (strb : BitVec 4) :
    bytes index (write s (index a) d strb) = write_word (bytes index s) a d strb := by
  funext b
  rw [bytes_write]
  simp only [hindex a b]
  rfl

end cells

end WordStore
