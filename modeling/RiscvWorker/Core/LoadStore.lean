import RiscvWorker.Library.ByteMemory
import RiscvWorker.Hdl.Datapath

/-! # Byte lanes

  `load_store_decoder` and `byte_reader` for aligned accesses: the strobes
  select exactly the bytes of the access, the store data carries them in
  their lanes, and the reader returns the bytes of the bus word that belong
  to the access.
-/

namespace RiscvWorker

open ByteMemory

/-! ### Addresses -/

theorem extract_eq_ofNat (a : Word) : a.extractLsb' 0 2 = BitVec.ofNat 2 (offset a) := by
  apply BitVec.eq_of_toNat_eq
  rw [extract_offset, BitVec.toNat_ofNat]
  exact (Nat.mod_eq_of_lt (offset_lt a)).symm

theorem offset_even {a : Word} (h : a.toNat % 2 = 0) : offset a = 0 ∨ offset a = 2 := by
  unfold offset
  omega

/-! ### Strobes -/

theorem byte_enb_byte (a : Word) {f3 : BitVec 3} (hf : f3 = F3_BYTE ∨ f3 = F3_BYTE_U) :
    LoadStoreDecoder.byte_enb a f3 = 1#4 <<< offset a := by
  unfold LoadStoreDecoder.byte_enb
  rw [if_pos hf, extract_eq_ofNat]
  rcases lt_four_cases (offset_lt a) with h | h | h | h <;> rw [h] <;> rfl

theorem byte_enb_half {a : Word} (ha : a.toNat % 2 = 0) {f3 : BitVec 3}
    (hf : f3 = F3_HALF_WORD ∨ f3 = F3_HALF_WORD_U) :
    LoadStoreDecoder.byte_enb a f3 = 3#4 <<< offset a := by
  have hb : ¬ (f3 = F3_BYTE ∨ f3 = F3_BYTE_U) := by
    rcases hf with rfl | rfl <;> decide
  unfold LoadStoreDecoder.byte_enb
  rw [if_neg hb, if_pos hf, extract_eq_ofNat]
  rcases offset_even ha with h | h <;> rw [h] <;> rfl

theorem byte_enb_word {a : Word} (ha : a.toNat % 4 = 0) :
    LoadStoreDecoder.byte_enb a F3_WORD = 0b1111#4 := by
  have ho : offset a = 0 := ha
  rw [LoadStoreDecoder.byte_enb, if_neg (by decide), if_neg (by decide), if_pos rfl,
    extract_eq_ofNat, ho]
  rfl

theorem getLsbD_one_shift {n k : Nat} (hn : n < 4) (hk : k < 4) :
    (1#4 <<< n).getLsbD k = true ↔ k = n := by
  rcases lt_four_cases hn with rfl | rfl | rfl | rfl <;>
    rcases lt_four_cases hk with rfl | rfl | rfl | rfl <;> decide

theorem getLsbD_three_shift {n k : Nat} (hn : n = 0 ∨ n = 2) (hk : k < 4) :
    (3#4 <<< n).getLsbD k = true ↔ k = n ∨ k = n + 1 := by
  rcases hn with rfl | rfl <;>
    rcases lt_four_cases hk with rfl | rfl | rfl | rfl <;> decide

/-! ### Store data -/

theorem lane_and (v m : Word) (k : Nat) : lane (v &&& m) k = lane v k &&& lane m k := by
  simp only [lane]
  ext j hj
  simp

theorem data_byte (latched a v : Word) {f3 : BitVec 3} (hf : f3 = F3_BYTE ∨ f3 = F3_BYTE_U) :
    lane (LoadStoreDecoder.data latched a f3 v) (offset a) = lane v 0 := by
  have hd : LoadStoreDecoder.data latched a f3 v = (v &&& 0xFF#32) <<< (8 * offset a) := by
    unfold LoadStoreDecoder.data
    rw [if_pos hf, extract_eq_ofNat]
    rcases lt_four_cases (offset_lt a) with h | h | h | h <;> rw [h] <;> simp
  -- lane 0 of the masked value is lane 0 of the register
  have hm : lane 0xFF#32 0 = BitVec.allOnes 8 := by decide
  rw [hd, lane_shiftLeft _ _ _ (offset_lt a), if_pos (Nat.le_refl _), Nat.sub_self, lane_and, hm,
    BitVec.and_allOnes]

theorem data_half (latched v : Word) {a : Word} (ha : a.toNat % 2 = 0) {f3 : BitVec 3}
    (hf : f3 = F3_HALF_WORD ∨ f3 = F3_HALF_WORD_U) :
    lane (LoadStoreDecoder.data latched a f3 v) (offset a) = lane v 0 ∧
      lane (LoadStoreDecoder.data latched a f3 v) (offset a + 1) = lane v 1 := by
  have hb : ¬ (f3 = F3_BYTE ∨ f3 = F3_BYTE_U) := by
    rcases hf with rfl | rfl <;> decide
  have hoff := offset_even ha
  have hd : LoadStoreDecoder.data latched a f3 v = (v &&& 0xFFFF#32) <<< (8 * offset a) := by
    unfold LoadStoreDecoder.data
    rw [if_neg hb, if_pos hf, extract_eq_ofNat]
    rcases hoff with h | h <;> rw [h] <;> simp
  have hm0 : lane 0xFFFF#32 0 = BitVec.allOnes 8 := by decide
  have hm1 : lane 0xFFFF#32 1 = BitVec.allOnes 8 := by decide
  constructor
  · rw [hd, lane_shiftLeft _ _ _ (offset_lt a), if_pos (Nat.le_refl _), Nat.sub_self, lane_and,
      hm0, BitVec.and_allOnes]
  · rw [hd, lane_shiftLeft _ _ _ (by omega), if_pos (by omega),
      show offset a + 1 - offset a = 1 from by omega, lane_and, hm1, BitVec.and_allOnes]

theorem data_word (latched a v : Word) : LoadStoreDecoder.data latched a F3_WORD v = v := by
  unfold LoadStoreDecoder.data
  rw [if_neg (by decide), if_neg (by decide), if_pos rfl]

/-! ### Load data -/

theorem masked_data_eq (d : Word) (mask : BitVec 4) :
    ByteReader.masked_data d mask = word_of (ByteReader.masked_byte d mask) := rfl

theorem lane_masked_data (d : Word) (mask : BitVec 4) {k : Nat} (hk : k < 4) :
    lane (ByteReader.masked_data d mask) k = if mask.getLsbD k then lane d k else 0#8 := by
  rw [masked_data_eq, lane_word_of _ hk]
  rfl

/-- A word whose upper bytes are zero. -/
theorem lane_setWidth_byte (b : Byte) {k : Nat} (hk : k < 4) :
    lane (b.setWidth 32) k = if k = 0 then b else 0#8 := by
  rcases lt_four_cases hk with rfl | rfl | rfl | rfl <;> simp only [lane] <;> ext j hj <;>
    simp <;> grind

theorem lane_setWidth_half (hi lo : Byte) {k : Nat} (hk : k < 4) :
    lane ((hi ++ lo).setWidth 32) k = if k = 0 then lo else if k = 1 then hi else 0#8 := by
  rcases lt_four_cases hk with rfl | rfl | rfl | rfl <;> simp only [lane] <;> ext j hj <;>
    simp <;> grind

theorem shifted_byte (latched d a : Word) {f3 : BitVec 3} (hf : f3 = F3_BYTE ∨ f3 = F3_BYTE_U) :
    ByteReader.shifted_data latched d f3 (LoadStoreDecoder.byte_enb a f3) =
      (lane d (offset a)).setWidth 32 := by
  have hw : f3 ≠ F3_WORD := by rcases hf with rfl | rfl <;> decide
  have hs : ByteReader.shifted_data latched d f3 (1#4 <<< offset a) =
      ByteReader.masked_data d (1#4 <<< offset a) >>> (8 * offset a) := by
    unfold ByteReader.shifted_data
    rw [if_neg hw, if_pos hf]
    rcases lt_four_cases (offset_lt a) with h | h | h | h <;> rw [h] <;> simp
  rw [byte_enb_byte a hf, hs]
  -- lane by lane: the selected byte moves to lane 0, the mask clears the others
  apply word_ext
  intro k hk
  rw [lane_ushiftRight, lane_setWidth_byte _ hk]
  by_cases hk0 : k = 0
  · subst hk0
    rw [if_pos (by have := offset_lt a; omega), Nat.zero_add, lane_masked_data _ _ (offset_lt a),
      if_pos ((getLsbD_one_shift (offset_lt a) (offset_lt a)).mpr rfl), if_pos rfl]
  · rw [if_neg hk0]
    split
    · rename_i hlt
      rw [lane_masked_data _ _ hlt, if_neg]
      rw [getLsbD_one_shift (offset_lt a) hlt]
      omega
    · rfl

theorem shifted_half (latched d : Word) {a : Word} (ha : a.toNat % 2 = 0) {f3 : BitVec 3}
    (hf : f3 = F3_HALF_WORD ∨ f3 = F3_HALF_WORD_U) :
    ByteReader.shifted_data latched d f3 (LoadStoreDecoder.byte_enb a f3) =
      (lane d (offset a + 1) ++ lane d (offset a)).setWidth 32 := by
  have hoff := offset_even ha
  have hw : f3 ≠ F3_WORD := by rcases hf with rfl | rfl <;> decide
  have hb : ¬ (f3 = F3_BYTE ∨ f3 = F3_BYTE_U) := by rcases hf with rfl | rfl <;> decide
  have hs : ByteReader.shifted_data latched d f3 (3#4 <<< offset a) =
      ByteReader.masked_data d (3#4 <<< offset a) >>> (8 * offset a) := by
    unfold ByteReader.shifted_data
    rw [if_neg hw, if_neg hb, if_pos hf]
    rcases hoff with h | h <;> rw [h] <;> simp
  rw [byte_enb_half ha hf, hs]
  apply word_ext
  intro k hk
  rw [lane_ushiftRight, lane_setWidth_half _ _ hk]
  by_cases hk0 : k = 0
  · subst hk0
    rw [if_pos (by omega), Nat.zero_add, lane_masked_data _ _ (offset_lt a),
      if_pos ((getLsbD_three_shift hoff (offset_lt a)).mpr (Or.inl rfl)), if_pos rfl]
  · by_cases hk1 : k = 1
    · subst hk1
      have hlt : 1 + offset a < 4 := by omega
      rw [if_pos hlt, lane_masked_data _ _ hlt,
        if_pos ((getLsbD_three_shift hoff hlt).mpr (Or.inr (by omega))), if_neg hk0, if_pos rfl,
        Nat.add_comm]
    · -- lanes above the half word: masked, or shifted in
      rw [if_neg hk0, if_neg hk1]
      split
      · rename_i hlt
        rw [lane_masked_data _ _ hlt, if_neg]
        rw [getLsbD_three_shift hoff hlt]
        omega
      · rfl

theorem shifted_word (latched d : Word) :
    ByteReader.shifted_data latched d F3_WORD 0b1111#4 = d := by
  unfold ByteReader.shifted_data
  rw [if_pos rfl]
  apply word_ext
  intro k hk
  rw [lane_masked_data _ _ hk]
  rcases lt_four_cases hk with rfl | rfl | rfl | rfl <;> simp

/-! ### Extension -/

theorem wb_data_byte (latched : Word) (b : Byte) :
    ByteReader.wb_data latched (b.setWidth 32) F3_BYTE = b.signExtend 32 := by
  have h : ByteReader.wb_data latched (b.setWidth 32) F3_BYTE =
      BitVec.replicate 24 ((b.setWidth 32).extractLsb' 7 1) ++ (b.setWidth 32).extractLsb' 0 8 := by
    rfl
  rw [h]
  ext j hj
  simp only [BitVec.getElem_append, BitVec.getElem_signExtend, BitVec.getElem_replicate]
  grind

theorem wb_data_byte_u (latched d : Word) : ByteReader.wb_data latched d F3_BYTE_U = d := by
  simp [ByteReader.wb_data]

theorem wb_data_half (latched : Word) (h : BitVec 16) :
    ByteReader.wb_data latched (h.setWidth 32) F3_HALF_WORD = h.signExtend 32 := by
  have hw : ByteReader.wb_data latched (h.setWidth 32) F3_HALF_WORD =
      BitVec.replicate 16 ((h.setWidth 32).extractLsb' 15 1)
        ++ (h.setWidth 32).extractLsb' 0 16 := by
    rfl
  rw [hw]
  ext j hj
  simp only [BitVec.getElem_append, BitVec.getElem_signExtend, BitVec.getElem_replicate]
  grind

theorem wb_data_half_u (latched d : Word) :
    ByteReader.wb_data latched d F3_HALF_WORD_U = d := by
  simp [ByteReader.wb_data]

theorem wb_data_word (latched d : Word) : ByteReader.wb_data latched d F3_WORD = d := by
  simp [ByteReader.wb_data]

end RiscvWorker
