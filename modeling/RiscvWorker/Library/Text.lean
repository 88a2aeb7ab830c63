import Mathlib.Data.List.TakeWhile
import Mathlib.Data.Nat.Digits.Lemmas
import RiscvWorker.Library.ByteMemory

/-! # Text as bytes

  Splitting a text at separators: into the tokens between runs of separators,
  and into the lines ended by a terminator. Numerals: the digits of a number
  in a base, and the number a string of digits stands for.
-/

namespace Text

export ByteMemory (Byte)

/-- The bytes of an ASCII string. -/
def ascii (s : String) : List Byte := s.toList.map fun c => BitVec.ofNat 8 c.toNat

/-! ### Tokens -/

section split
variable {α : Type} {p : α → Bool}

/-- The nonempty pieces between separators. -/
def tokens (p : α → Bool) (s : List α) : List (List α) := (s.splitOnP p).filter (· ≠ [])

@[simp] theorem tokens_nil : tokens p [] = [] := by simp [tokens]

theorem tokens_cons_separator {c : α} (hc : p c = true) (s : List α) :
    tokens p (c :: s) = tokens p s := by
  unfold tokens
  rw [List.splitOnP_cons_eq_if_modifyHead, if_pos hc]
  simp

/-- Separators in front of a text change nothing. -/
theorem tokens_append_separators {pre : List α} (hpre : ∀ c ∈ pre, p c = true) (s : List α) :
    tokens p (pre ++ s) = tokens p s := by
  induction pre with
  | nil => rfl
  | cons c pre ih =>
    rw [List.cons_append, tokens_cons_separator (hpre c (by simp)), ih]
    intro d hd
    exact hpre d (by simp [hd])

theorem tokens_eq_singleton {w : List α} (hne : w ≠ []) (hw : ∀ c ∈ w, p c = false) :
    tokens p w = [w] := by
  unfold tokens
  rw [List.splitOnP_eq_singleton hw]
  simp [hne]

/-- A word up to a separator is the first token. -/
theorem tokens_word {w : List α} {c : α} (hne : w ≠ []) (hw : ∀ d ∈ w, p d = false)
    (hc : p c = true) (s : List α) : tokens p (w ++ c :: s) = w :: tokens p s := by
  unfold tokens
  rw [List.splitOnP_append_cons_of_forall_mem hw c hc]
  simp [hne]

/-- A text without tokens is blank. -/
theorem tokens_eq_nil_iff (s : List α) : tokens p s = [] ↔ ∀ c ∈ s, p c = true := by
  constructor
  · intro h
    induction s with
    | nil => simp
    | cons c s ih =>
      by_cases hc : p c = true
      · rw [tokens_cons_separator hc] at h
        simpa [hc] using ih h
      · unfold tokens at h
        rw [List.splitOnP_cons_eq_if_modifyHead, if_neg hc] at h
        obtain ⟨w, l, hl⟩ := List.exists_cons_of_ne_nil (List.splitOnP_ne_nil p s)
        simp [hl] at h
  · intro h
    have happ := tokens_append_separators h []
    simpa using happ

/-- A character of a word lengthens the first piece of what follows. -/
theorem tokens_cons_of_word {c : α} (hc : p c = false) (s : List α) :
    ∃ w l, tokens p s = (w :: l).filter (· ≠ []) ∧
      tokens p (c :: s) = (c :: w) :: l.filter (· ≠ []) := by
  have hc' : ¬ p c = true := by simp [hc]
  obtain ⟨w, l, hl⟩ := List.exists_cons_of_ne_nil (List.splitOnP_ne_nil p s)
  refine ⟨w, l, ?_, ?_⟩
  · unfold tokens
    rw [hl]
  · unfold tokens
    rw [List.splitOnP_cons_eq_if_modifyHead, if_neg hc', hl]
    simp

/-- Every character that is no separator stands in a token. -/
theorem mem_tokens {c : α} (hc : p c = false) {s : List α} (hs : c ∈ s) :
    ∃ w ∈ tokens p s, c ∈ w := by
  induction s with
  | nil => exact absurd hs (by simp)
  | cons d s ih =>
    by_cases hd : p d = true
    · rw [tokens_cons_separator hd]
      apply ih
      rcases List.mem_cons.mp hs with rfl | hmem
      · rw [hc] at hd
        exact absurd hd (by decide)
      · exact hmem
    · have hd' : p d = false := by simpa using hd
      obtain ⟨w, l, htail, hcons⟩ := tokens_cons_of_word hd' s
      rw [hcons]
      rcases List.mem_cons.mp hs with rfl | hmem
      · exact ⟨c :: w, by simp, by simp⟩
      · obtain ⟨v, hv, hcv⟩ := ih hmem
        rw [htail, List.mem_filter, List.mem_cons] at hv
        obtain ⟨hv | hv, hne⟩ := hv
        · exact ⟨d :: w, by simp, by simp [← hv, hcv]⟩
        · exact ⟨v, List.mem_cons_of_mem _ (List.mem_filter.mpr ⟨hv, hne⟩), hcv⟩

/-! ### Lines -/

/-- The lines that have been ended by a terminator. -/
def lines (p : α → Bool) (s : List α) : List (List α) := (s.splitOnP p).dropLast

theorem lines_of_unterminated {s : List α} (hs : ∀ c ∈ s, p c = false) : lines p s = [] := by
  unfold lines
  rw [List.splitOnP_eq_singleton hs]
  rfl

theorem lines_cons {w : List α} {c : α} (hw : ∀ d ∈ w, p d = false) (hc : p c = true)
    (s : List α) : lines p (w ++ c :: s) = w :: lines p s := by
  unfold lines
  rw [List.splitOnP_append_cons_of_forall_mem hw c hc,
    List.dropLast_cons_of_ne_nil (List.splitOnP_ne_nil p s)]

/-- A text is unterminated or begins with a line. -/
theorem line_cases (p : α → Bool) (s : List α) :
    (∀ c ∈ s, p c = false) ∨
    ∃ w c rest, s = w ++ c :: rest ∧ (∀ d ∈ w, p d = false) ∧ p c = true := by
  induction s with
  | nil => simp
  | cons c s ih =>
    by_cases hc : p c = true
    · exact .inr ⟨[], c, s, rfl, by simp, hc⟩
    · have hc' : p c = false := by simpa using hc
      rcases ih with hs | ⟨w, d, rest, rfl, hw, hd⟩
      · exact .inl (by simpa [hc'] using hs)
      · exact .inr ⟨c :: w, d, rest, rfl, by simpa [hc'] using hw, hd⟩

end split

/-! ### Numerals -/

/-- The character of a digit, in upper case. -/
def digit (d : Nat) : Byte := if d < 10 then BitVec.ofNat 8 (48 + d) else BitVec.ofNat 8 (55 + d)

/-- The value of an alphanumeric character as a digit; 36, which is a digit in
    no base, for the others. -/
def digit_value (c : Byte) : Nat :=
  if 48 ≤ c.toNat ∧ c.toNat ≤ 57 then c.toNat - 48
  else if 65 ≤ c.toNat ∧ c.toNat ≤ 90 then c.toNat - 55
  else if 97 ≤ c.toNat ∧ c.toNat ≤ 122 then c.toNat - 87
  else 36

theorem digit_value_digit {d : Nat} (hd : d < 36) : digit_value (digit d) = d := by
  revert d
  decide

/-- The number that a string of digits stands for. -/
def numeral_value (base : Nat) (s : List Byte) : Nat :=
  Nat.ofDigits base (s.map digit_value).reverse

/-- The numeral of `n` in a base, without leading zeros. -/
def numeral (base n : Nat) : List Byte :=
  if n = 0 then [digit 0] else ((Nat.digits base n).map digit).reverse

/-- Zeros in front, up to a width. -/
def zero_pad (width : Nat) (s : List Byte) : List Byte := s.leftpad width (digit 0)

@[simp] theorem length_zero_pad (width : Nat) (s : List Byte) :
    (zero_pad width s).length = max width s.length := by
  unfold zero_pad
  exact List.length_leftpad

theorem zero_pad_ne_nil {width : Nat} (hw : 0 < width) (s : List Byte) : zero_pad width s ≠ [] := by
  intro h
  have hlen := congrArg List.length h
  rw [length_zero_pad, List.length_nil] at hlen
  omega

theorem numeral_value_zero_pad (base width : Nat) (s : List Byte) :
    numeral_value base (zero_pad width s) = numeral_value base s := by
  unfold numeral_value zero_pad List.leftpad
  rw [List.map_append, List.reverse_append, List.map_replicate, List.reverse_replicate,
    digit_value_digit (by decide), Nat.ofDigits_append_replicate_zero]

section base
variable {base : Nat} (h1 : 1 < base) (h36 : base ≤ 36)
include h1 h36

theorem digits_value (n : Nat) :
    ((Nat.digits base n).map digit).map digit_value = Nat.digits base n := by
  have hid : ∀ d ∈ Nat.digits base n, (digit_value ∘ digit) d = id d := by
    intro d hd
    exact digit_value_digit (lt_of_lt_of_le (Nat.digits_lt_base h1 hd) h36)
  rw [List.map_map, List.map_congr_left hid, List.map_id]

/-- A numeral stands for its number. -/
theorem numeral_value_numeral (n : Nat) : numeral_value base (numeral base n) = n := by
  unfold numeral_value numeral
  by_cases hn : n = 0
  · simp [hn, digit_value_digit]
  · rw [if_neg hn, List.map_reverse, List.reverse_reverse, digits_value h1 h36,
      Nat.ofDigits_digits]

theorem numeral_digit (n : Nat) {c : Byte} (hc : c ∈ numeral base n) : digit_value c < base := by
  unfold numeral at hc
  by_cases hn : n = 0
  · rw [if_pos hn, List.mem_singleton] at hc
    rw [hc, digit_value_digit (by decide)]
    omega
  · rw [if_neg hn, List.mem_reverse, List.mem_map] at hc
    obtain ⟨d, hd, rfl⟩ := hc
    have hlt := Nat.digits_lt_base h1 hd
    rwa [digit_value_digit (by omega)]

end base

theorem digit_value_mem_zero_pad {base width : Nat} (hb : 0 < base) {s : List Byte}
    (hs : ∀ c ∈ s, digit_value c < base) : ∀ c ∈ zero_pad width s, digit_value c < base := by
  intro c hc
  unfold zero_pad List.leftpad at hc
  rcases List.mem_append.mp hc with hc | hc
  · rw [List.eq_of_mem_replicate hc, digit_value_digit (by decide)]
    exact hb
  · exact hs c hc

theorem numeral_ne_nil (base n : Nat) : numeral base n ≠ [] := by
  unfold numeral
  by_cases hn : n = 0
  · simp [hn]
  · simpa [hn] using Nat.digits_ne_nil_iff_ne_zero.mpr hn

theorem length_numeral_le {base n k : Nat} (h1 : 1 < base) (hk : 0 < k) (hn : n < base ^ k) :
    (numeral base n).length ≤ k := by
  unfold numeral
  by_cases h0 : n = 0
  · rw [if_pos h0]
    exact hk
  · rw [if_neg h0, List.length_reverse, List.length_map]
    exact (Nat.digits_length_le_iff h1 n).mpr hn

end Text
