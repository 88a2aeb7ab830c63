import RiscvWorker.Library.WordStore

/-! # Arrays of words

  Words in a row, at multiples of four: what is stored word after word, and
  what is loaded again.
-/

namespace ByteMemory

/-! ### Single words -/

theorem merge_full (old d : Word) : WordStore.merge old d 0b1111#4 = d := by
  apply word_ext
  intro k hk
  rw [WordStore.lane_merge _ _ _ hk]
  rcases lt_four_cases hk with rfl | rfl | rfl | rfl <;> rfl

/-- A write that selects no lane. -/
theorem write_word_none (m : Memory) (a d : Word) : write_word m a d 0#4 = m := by
  funext b
  unfold write_word
  simp

/-- A word after a store of a word. -/
theorem load_word_store_word (m : Memory) {a b : Word} (v : Word) (ha : a.toNat % 4 = 0)
    (hb : b.toNat % 4 = 0) :
    load_word (store_word m a v) b = if b = a then v else load_word m b := by
  rw [← write_word_eq_store_word m a v ha, ← read_word_eq_load_word hb,
    WordStore.read_word_write_word, align_eq_self ha, align_eq_self hb, merge_full,
    read_word_eq_load_word hb]

/-! ### Words in a row -/

/-- The address of the `k`-th word from `base` on. -/
def word_addr (base : Word) (k : Nat) : Word := base + BitVec.ofNat 32 (4 * k)

theorem word_addr_zero (base : Word) : word_addr base 0 = base := BitVec.add_zero base

theorem word_addr_succ (base : Word) (k : Nat) :
    word_addr base (k + 1) = word_addr (base + 4#32) k := by
  unfold word_addr
  have hk : BitVec.ofNat 32 (4 * (k + 1)) = 4#32 + BitVec.ofNat 32 (4 * k) := by
    rw [← BitVec.ofNat_add]
    congr 1
    omega
  rw [hk, BitVec.add_assoc]

theorem word_addr_aligned {base : Word} (hbase : base.toNat % 4 = 0) (k : Nat) :
    (word_addr base k).toNat % 4 = 0 := by
  unfold word_addr
  rw [BitVec.toNat_add, BitVec.toNat_ofNat]
  omega

theorem word_addr_add (base : Word) (j k : Nat) :
    word_addr (word_addr base j) k = word_addr base (j + k) := by
  unfold word_addr
  rw [BitVec.add_assoc, ← BitVec.ofNat_add, Nat.mul_add]

theorem word_addr_zero_add (base : Word) (k : Nat) :
    word_addr 0#32 k + base = word_addr base k := by
  unfold word_addr
  rw [BitVec.zero_add, BitVec.add_comm]

theorem word_addr_div {a : Word} (ha : a.toNat % 4 = 0) : word_addr 0#32 (a.toNat / 4) = a := by
  apply BitVec.eq_of_toNat_eq
  have hlt := a.isLt
  unfold word_addr
  rw [BitVec.zero_add, BitVec.toNat_ofNat]
  omega

/-- Four gigabytes have no two words at one address. -/
theorem word_addr_inj {base : Word} {j k : Nat} (hj : 4 * j < 2 ^ 32) (hk : 4 * k < 2 ^ 32)
    (h : word_addr base j = word_addr base k) : j = k := by
  have hn := congrArg BitVec.toNat h
  unfold word_addr at hn
  rw [BitVec.toNat_add, BitVec.toNat_add, BitVec.toNat_ofNat, BitVec.toNat_ofNat] at hn
  omega

/-- The memory after the words are stored from `base` on. -/
def store_words (m : Memory) (base : Word) : List Word → Memory
  | [] => m
  | w :: ws => store_words (store_word m base w) (base + 4#32) ws

theorem store_words_concat (m : Memory) (base : Word) (ws : List Word) (w : Word) :
    store_words m base (ws ++ [w]) =
      store_word (store_words m base ws) (word_addr base ws.length) w := by
  induction ws generalizing m base with
  | nil => rw [List.length_nil, word_addr_zero]; rfl
  | cons v ws ih =>
    rw [List.cons_append, store_words, ih, List.length_cons, word_addr_succ]
    rfl

/-- One word more. -/
theorem store_words_take_succ (m : Memory) (base : Word) {ws : List Word} {k : Nat}
    (hk : k < ws.length) :
    store_words m base (ws.take (k + 1)) =
      store_word (store_words m base (ws.take k)) (word_addr base k) ws[k] := by
  rw [List.take_succ_eq_append_getElem hk, store_words_concat,
    List.length_take_of_le (Nat.le_of_lt hk)]

section loads
variable (m : Memory) {base : Word} (hbase : base.toNat % 4 = 0) {ws : List Word}
include hbase

/-- Words elsewhere stay as they are. -/
theorem load_word_store_words_other {a : Word} (ha : a.toNat % 4 = 0)
    (hother : ∀ k, k < ws.length → a ≠ word_addr base k) :
    load_word (store_words m base ws) a = load_word m a := by
  induction ws using List.reverseRecOn with
  | nil => rfl
  | append_singleton ws w ih =>
    rw [store_words_concat, load_word_store_word _ _ (word_addr_aligned hbase _) ha,
      if_neg (hother ws.length (by simp))]
    refine ih fun k hk => hother k ?_
    rw [List.length_append]
    omega

/-- The words that were stored. -/
theorem load_word_store_words (hfit : 4 * ws.length ≤ 2 ^ 32) {k : Nat} (hk : k < ws.length) :
    load_word (store_words m base ws) (word_addr base k) = ws[k] := by
  induction ws using List.reverseRecOn with
  | nil => exact absurd hk (Nat.not_lt_zero k)
  | append_singleton ws w ih =>
    rw [List.length_append, List.length_singleton] at hfit hk
    rw [store_words_concat, load_word_store_word _ _ (word_addr_aligned hbase _)
      (word_addr_aligned hbase _)]
    by_cases hlast : k = ws.length
    · subst hlast
      rw [if_pos rfl, List.getElem_append_right (Nat.le_refl _)]
      simp
    · have hne : word_addr base k ≠ word_addr base ws.length := by
        intro hc
        exact hlast (word_addr_inj (by omega) (by omega) hc)
      have hk' : k < ws.length := by omega
      rw [if_neg hne, ih (by omega) hk', List.getElem_append_left hk']

end loads

/-- A word of an array, after some of its words were stored. -/
theorem load_word_store_words_at (m : Memory) {base : Word} (hbase : base.toNat % 4 = 0)
    {ws : List Word} {j k : Nat} (hj : 4 * (j + ws.length) ≤ 2 ^ 32) (hk : 4 * k < 2 ^ 32) :
    load_word (store_words m (word_addr base j) ws) (word_addr base k) =
      if j ≤ k ∧ k < j + ws.length then ws.getD (k - j) 0#32
      else load_word m (word_addr base k) := by
  have haligned := word_addr_aligned hbase
  split
  · rename_i h
    have hlt : k - j < ws.length := by omega
    have hload : load_word (store_words m (word_addr base j) ws)
        (word_addr (word_addr base j) (k - j)) = ws[k - j] :=
      load_word_store_words m (haligned j) (by omega) hlt
    rw [word_addr_add, Nat.add_sub_cancel' h.1] at hload
    rw [hload, List.getD_eq_getElem?_getD, List.getElem?_eq_getElem hlt, Option.getD_some]
  · rename_i h
    refine load_word_store_words_other m (haligned j) (haligned k) fun i hi hc => h ?_
    rw [word_addr_add] at hc
    obtain rfl : k = j + i := word_addr_inj hk (by omega) hc
    omega

end ByteMemory
