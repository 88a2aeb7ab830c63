import RiscvWorker.Library.WordStore
import RiscvWorker.Core.LoadStore
import RiscvWorker.Isa.Rv32i

/-! # Loads and stores over a word memory

  Sequences of loads and stores of mixed widths at arbitrary addresses: each
  goes through `load_store_decoder`, one strobed write or one read of a word,
  and `byte_reader`. The word memory behaves as a byte-addressed one.
-/

namespace RiscvWorker

open ByteMemory WordStore
open Rv32i (LoadOp StoreOp)

/-! ### The func3 field of an access -/

def store_func3 : StoreOp → BitVec 3
  | .sb => F3_BYTE
  | .sh => F3_HALF_WORD
  | .sw => F3_WORD

def load_func3 : LoadOp → BitVec 3
  | .lb => F3_BYTE
  | .lh => F3_HALF_WORD
  | .lw => F3_WORD
  | .lbu => F3_BYTE_U
  | .lhu => F3_HALF_WORD_U

/-! ### Aligned accesses through the lanes -/

/-- A word on the bus, seen through the reader, is what the load reads. -/
theorem lanes_load (op : LoadOp) (m : Memory) {a : Word} (ha : a.toNat % op.size = 0)
    (latched latched' : Word) :
    ByteReader.wb_data latched
      (ByteReader.shifted_data latched' (read_word m a) (load_func3 op)
        (LoadStoreDecoder.byte_enb a (load_func3 op))) (load_func3 op) = op.read m a := by
  cases op with
  | lb =>
    rw [show load_func3 .lb = F3_BYTE from rfl, shifted_byte _ _ _ (Or.inl rfl), lane_read_word]
    exact wb_data_byte _ _
  | lh =>
    rw [show load_func3 .lh = F3_HALF_WORD from rfl, shifted_half _ _ ha (Or.inl rfl),
      lane_read_word, lane_read_word_succ m ha]
    exact wb_data_half _ _
  | lw =>
    rw [show load_func3 .lw = F3_WORD from rfl, byte_enb_word ha, shifted_word,
      read_word_eq_load_word ha]
    exact wb_data_word _ _
  | lbu =>
    rw [show load_func3 .lbu = F3_BYTE_U from rfl, shifted_byte _ _ _ (Or.inr rfl),
      lane_read_word]
    exact wb_data_byte_u _ _
  | lhu =>
    rw [show load_func3 .lhu = F3_HALF_WORD_U from rfl, shifted_half _ _ ha (Or.inr rfl),
      lane_read_word, lane_read_word_succ m ha]
    exact wb_data_half_u _ _

/-- The strobed write of a store is the store. -/
theorem lanes_store (op : StoreOp) (m : Memory) {a : Word} (ha : a.toNat % op.size = 0)
    (latched v : Word) :
    write_word m a (LoadStoreDecoder.data latched a (store_func3 op) v)
      (LoadStoreDecoder.byte_enb a (store_func3 op)) = op.write m a v := by
  cases op with
  | sb =>
    apply write_word_eq_store_byte
    · intro k hk
      show (LoadStoreDecoder.byte_enb a F3_BYTE).getLsbD k = true ↔ _
      rw [byte_enb_byte a (Or.inl rfl)]
      exact getLsbD_one_shift (offset_lt a) hk
    · exact data_byte _ _ _ (Or.inl rfl)
  | sh =>
    obtain ⟨hd0, hd1⟩ := @data_half latched v a ha F3_HALF_WORD (Or.inl rfl)
    apply write_word_eq_store_half _ _ _ _ _ ha _ hd0 hd1
    intro k hk
    show (LoadStoreDecoder.byte_enb a F3_HALF_WORD).getLsbD k = true ↔ _
    rw [byte_enb_half ha (Or.inl rfl)]
    exact getLsbD_three_shift (offset_even ha) hk
  | sw =>
    show write_word m a (LoadStoreDecoder.data latched a F3_WORD v)
      (LoadStoreDecoder.byte_enb a F3_WORD) = _
    rw [byte_enb_word ha, data_word]
    exact write_word_eq_store_word m a v ha

/-! ### Misaligned stores -/

/-- A half word at an odd address and a word off a word boundary select no
    lane. -/
theorem byte_enb_misaligned (op : StoreOp) {a : Word} (ha : a.toNat % op.size ≠ 0) :
    LoadStoreDecoder.byte_enb a (store_func3 op) = 0#4 := by
  have hlt := offset_lt a
  cases op with
  | sb => exact absurd (Nat.mod_one _) ha
  | sh =>
    have hodd : offset a % 2 ≠ 0 := by
      have h : a.toNat % 2 ≠ 0 := ha
      unfold offset
      omega
    rw [show store_func3 .sh = F3_HALF_WORD from rfl, LoadStoreDecoder.byte_enb,
      if_neg (by decide), if_pos (Or.inl rfl), extract_eq_ofNat]
    rcases lt_four_cases hlt with h | h | h | h <;> rw [h] at hodd ⊢
    · exact absurd rfl hodd
    · rfl
    · exact absurd rfl hodd
    · rfl
  | sw =>
    have hoff : offset a ≠ 0 := ha
    rw [show store_func3 .sw = F3_WORD from rfl, LoadStoreDecoder.byte_enb, if_neg (by decide),
      if_neg (by decide), if_pos rfl, extract_eq_ofNat]
    rcases lt_four_cases hlt with h | h | h | h <;> rw [h] at hoff ⊢
    · exact absurd rfl hoff
    · rfl
    · rfl
    · rfl

/-! ### Stores byte by byte -/

theorem StoreOp.size_cases (op : StoreOp) : op.size = 1 ∨ op.size = 2 ∨ op.size = 4 := by
  cases op with
  | sb => exact Or.inl rfl
  | sh => exact Or.inr (Or.inl rfl)
  | sw => exact Or.inr (Or.inr rfl)

/-- The bytes of an aligned access do not wrap around the address space. -/
theorem eq_add_iff (op : StoreOp) {a b : Word} {k : Nat} (ha : a.toNat % op.size = 0)
    (hk : k < op.size) : b = a + BitVec.ofNat 32 k ↔ b.toNat = a.toNat + k := by
  have hlt := a.isLt
  have hsum : (a + BitVec.ofNat 32 k).toNat = a.toNat + k := by
    rw [BitVec.toNat_add, BitVec.toNat_ofNat]
    rcases StoreOp.size_cases op with h | h | h <;> rw [h] at ha hk <;> omega
  constructor
  · intro h
    rw [h, hsum]
  · intro h
    apply BitVec.eq_of_toNat_eq
    rw [hsum, h]

/-- An aligned store changes exactly the bytes `[a, a + size)`, to the low
    bytes of `v` in little-endian order. -/
theorem write_apply (op : StoreOp) (m : Memory) {a : Word} (v b : Word)
    (ha : a.toNat % op.size = 0) :
    op.write m a v b =
      if a.toNat ≤ b.toNat ∧ b.toNat < a.toNat + op.size then lane v (b.toNat - a.toNat)
      else m b := by
  have h0 : b = a ↔ b.toNat = a.toNat := ⟨fun h => congrArg _ h, BitVec.eq_of_toNat_eq⟩
  cases op with
  | sb =>
    show (if b = a then lane v 0 else m b) = _
    grind [Rv32i.StoreOp.size]
  | sh =>
    have h1 : b = a + 1#32 ↔ b.toNat = a.toNat + 1 := @eq_add_iff .sh a b 1 ha (by decide)
    show (if b = a + 1#32 then lane v 1 else if b = a then lane v 0 else m b) = _
    grind [Rv32i.StoreOp.size]
  | sw =>
    have h1 : b = a + 1#32 ↔ b.toNat = a.toNat + 1 := @eq_add_iff .sw a b 1 ha (by decide)
    have h2 : b = a + 2#32 ↔ b.toNat = a.toNat + 2 := @eq_add_iff .sw a b 2 ha (by decide)
    have h3 : b = a + 3#32 ↔ b.toNat = a.toNat + 3 := @eq_add_iff .sw a b 3 ha (by decide)
    show (if b = a + 3#32 then lane v 3 else if b = a + 2#32 then lane v 2
      else if b = a + 1#32 then lane v 1 else if b = a then lane v 0 else m b) = _
    grind [Rv32i.StoreOp.size]

/-! ### Accesses to a word memory -/

/-- The data memory: one word for each value of the upper 30 address bits. -/
abbrev WordMemory : Type := Store (BitVec 30)

def word_index (a : Word) : BitVec 30 := a.extractLsb' 2 30

theorem word_index_eq_iff (a b : Word) : word_index b = word_index a ↔ align b = align a := by
  constructor
  · intro h
    unfold word_index at h
    unfold align
    rw [h]
  · intro h
    have hn := congrArg BitVec.toNat h
    rw [align_toNat, align_toNat] at hn
    apply BitVec.eq_of_toNat_eq
    unfold word_index
    simp only [BitVec.extractLsb'_toNat, Nat.shiftRight_eq_div_pow]
    omega

/-- The byte at every address. -/
abbrev WordMemory.bytes (m : WordMemory) : Memory := WordStore.bytes word_index m

/-- A load or a store with its effective address; `rs2` is the stored value. -/
inductive Access where
  | store (op : StoreOp) (addr rs2 : Word)
  | load (op : LoadOp) (addr : Word)
  deriving DecidableEq, Repr

/-- What the unassigned outputs of the two units still hold from earlier
    cycles. -/
structure Latched where
  data : Word
  shifted : Word
  wb : Word
  deriving DecidableEq, Repr

/-- One access: the memory after it, and the register value of a load. The
    address of a write is `{addr[31:2], 2'b00}`, a read ignores the low bits. -/
def Access.exec (m : WordMemory) (l : Latched) : Access → WordMemory × Option Word
  | .store op addr rs2 =>
    (WordStore.write m (word_index addr) (LoadStoreDecoder.data l.data addr (store_func3 op) rs2)
      (LoadStoreDecoder.byte_enb addr (store_func3 op)), none)
  | .load op addr =>
    (m, some (ByteReader.wb_data l.wb
      (ByteReader.shifted_data l.shifted (m (word_index addr)) (load_func3 op)
        (LoadStoreDecoder.byte_enb addr (load_func3 op))) (load_func3 op)))

/-- A sequence of accesses; other instructions may come between them, so the
    held values of each access are arbitrary. -/
def exec_all (m : WordMemory) (as : List (Latched × Access)) : WordMemory :=
  as.foldl (fun m p => (p.2.exec m p.1).1) m

/-- The effect of an access on a byte-addressed memory: an aligned store
    writes its bytes, everything else leaves the memory alone. -/
def Access.effect (mem : Memory) : Access → Memory
  | .store op addr rs2 => if addr.toNat % op.size = 0 then op.write mem addr rs2 else mem
  | .load _ _ => mem

theorem effect_store_aligned (mem : Memory) (op : StoreOp) {addr : Word} (rs2 : Word)
    (ha : addr.toNat % op.size = 0) :
    (Access.store op addr rs2).effect mem = op.write mem addr rs2 :=
  if_pos ha

theorem effect_store_misaligned (mem : Memory) (op : StoreOp) {addr : Word} (rs2 : Word)
    (ha : addr.toNat % op.size ≠ 0) : (Access.store op addr rs2).effect mem = mem :=
  if_neg ha

/-! ### The byte-addressed view is kept -/

theorem bytes_exec (m : WordMemory) (l : Latched) (x : Access) :
    (x.exec m l).1.bytes = x.effect m.bytes := by
  cases x with
  | store op addr rs2 =>
    show WordStore.bytes word_index (WordStore.write m _ _ _) = _
    by_cases ha : addr.toNat % op.size = 0
    · rw [effect_store_aligned _ op rs2 ha, bytes_write_index word_index_eq_iff]
      exact lanes_store op m.bytes ha l.data rs2
    · -- no lane is selected, whatever the data output holds
      rw [effect_store_misaligned _ op rs2 ha, byte_enb_misaligned op ha, write_zero]
  | load op addr => rfl

theorem bytes_exec_all (m : WordMemory) (as : List (Latched × Access)) :
    (exec_all m as).bytes = as.foldl (fun mem p => p.2.effect mem) m.bytes := by
  induction as generalizing m with
  | nil => rfl
  | cons p as ih =>
    show (exec_all (p.2.exec m p.1).1 as).bytes = _
    rw [ih, bytes_exec]
    rfl

/-- An aligned load returns what the byte-addressed memory holds. -/
theorem exec_load (m : WordMemory) (l : Latched) (op : LoadOp) {addr : Word}
    (ha : addr.toNat % op.size = 0) :
    ((Access.load op addr).exec m l).2 = some (op.read m.bytes addr) := by
  have hword : m (word_index addr) = read_word m.bytes addr := by
    rw [WordMemory.bytes, read_word_bytes]
    intro a b h
    exact (word_index_eq_iff a b).mpr h
  show some _ = _
  rw [hword, lanes_load op m.bytes ha]

/-- After every sequence of loads and stores of mixed widths at arbitrary
    addresses: an aligned store changes exactly its bytes, a misaligned one
    none, and an aligned load returns the extended little-endian value of its
    bytes as the stores before it left them. -/
theorem byte_lanes_refine (m : WordMemory) (as : List (Latched × Access)) (l : Latched) :
    (exec_all m as).bytes = as.foldl (fun mem p => p.2.effect mem) m.bytes ∧
    (∀ op addr rs2 b, ((Access.store op addr rs2).exec (exec_all m as) l).1.bytes b =
      if addr.toNat % op.size = 0 ∧ addr.toNat ≤ b.toNat ∧ b.toNat < addr.toNat + op.size then
        lane rs2 (b.toNat - addr.toNat)
      else (exec_all m as).bytes b) ∧
    (∀ op addr, addr.toNat % op.size = 0 →
      ((Access.load op addr).exec (exec_all m as) l).2 =
        some (op.read (as.foldl (fun mem p => p.2.effect mem) m.bytes) addr)) := by
  refine ⟨bytes_exec_all m as, ?_, ?_⟩
  · intro op addr rs2 b
    rw [bytes_exec]
    by_cases ha : addr.toNat % op.size = 0
    · rw [effect_store_aligned _ op rs2 ha, write_apply op _ _ _ ha]
      simp only [ha, true_and]
    · rw [effect_store_misaligned _ op rs2 ha, if_neg fun h => ha h.1]
  · intro op addr ha
    rw [exec_load _ l op ha, bytes_exec_all]

/-- A byte stored into a word is sign extended with its half word: SW, SB,
    LH. -/
theorem byte_lanes_refine_mixed_widths :
    let held : Latched := ⟨0#32, 0#32, 0#32⟩
    let as : List (Latched × Access) :=
      [(held, .store .sw 0x100#32 0x11223344#32), (held, .store .sb 0x101#32 0x80#32)]
    0x100 % 2 = 0 ∧
      ((Access.load .lh 0x100#32).exec (exec_all (fun _ => 0#32) as) held).2 =
        some 0xFFFF8044#32 := by
  intro held as
  refine ⟨by decide, ?_⟩
  rw [(byte_lanes_refine (fun _ => 0#32) as held).2.2 .lh 0x100#32 (by decide)]
  decide +kernel

end RiscvWorker
