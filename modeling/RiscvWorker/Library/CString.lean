import RiscvWorker.Library.Text

/-! # C strings

  A character array and the strings in it: a string is what stands from a
  position up to the next NUL. `strtok` and `strtoul` as the C standard has
  them. A function that would read past the end of the array has no result.
-/

namespace CString

open Text

/-- The string at `p`, when there is a NUL to end it. -/
def c_string (mem : List Byte) (p : Nat) : Option (List Byte) :=
  if 0#8 ∈ mem.drop p then some ((mem.drop p).takeWhile (· ≠ 0#8)) else none

/-- The array holds `s` at `p`, with its NUL. -/
def StringAt (mem : List Byte) (p : Nat) (s : List Byte) : Prop :=
  ∃ pre post, mem = pre ++ (s ++ 0#8 :: post) ∧ pre.length = p ∧ 0#8 ∉ s

namespace StringAt
variable {mem s w : List Byte} {p : Nat} {c : Byte}

theorem c_string_eq (h : StringAt mem p s) : c_string mem p = some s := by
  obtain ⟨pre, post, rfl, rfl, hs⟩ := h
  have hne : ∀ d ∈ s, (decide (d ≠ 0#8)) = true := by
    intro d hd
    exact decide_eq_true (fun hd0 => hs (hd0 ▸ hd))
  unfold c_string
  rw [List.drop_left, if_pos (by simp), List.takeWhile_append_of_pos hne,
    List.takeWhile_cons_of_neg (by simp), List.append_nil]

theorem lt_length (h : StringAt mem p s) : p + s.length < mem.length := by
  obtain ⟨pre, post, rfl, rfl, -⟩ := h
  simp only [List.length_append, List.length_cons]
  omega

/-- Further into a string. -/
theorem advance (h : StringAt mem p (w ++ s)) : StringAt mem (p + w.length) s := by
  obtain ⟨pre, post, rfl, rfl, hs⟩ := h
  refine ⟨pre ++ w, post, by simp, by simp, ?_⟩
  intro hc
  exact hs (List.mem_append_right w hc)

/-- A NUL in the middle of a string makes two strings of it. -/
theorem cut (h : StringAt mem p (w ++ c :: s)) :
    StringAt (mem.set (p + w.length) 0#8) p w ∧
    StringAt (mem.set (p + w.length) 0#8) (p + w.length + 1) s := by
  obtain ⟨pre, post, rfl, rfl, hs⟩ := h
  have hset : (pre ++ (w ++ c :: s ++ 0#8 :: post)).set (pre.length + w.length) 0#8 =
      pre ++ (w ++ 0#8 :: (s ++ 0#8 :: post)) := by
    rw [List.set_append_right _ _ (by omega), Nat.add_sub_cancel_left, List.append_assoc,
      List.set_append_right _ _ (by omega), Nat.sub_self]
    rfl
  rw [hset]
  constructor
  · exact ⟨pre, s ++ 0#8 :: post, rfl, rfl, fun hc => hs (by simp [hc])⟩
  · exact ⟨pre ++ w ++ [0#8], post, by simp, by simp [Nat.add_assoc], fun hc => hs (by simp [hc])⟩

end StringAt

/-! ### strtok -/

/-- What a call of `strtok` does: the token it returns, the byte it overwrites
    with NUL, and the pointer it keeps for the next call. -/
structure Strtok where
  token : Option Nat
  cut : Option Nat
  save : Option Nat
  deriving DecidableEq, Repr

/-- `strtok` on the string at `p`, or at the pointer it has kept; the pointer
    is null when there was no text left. -/
def strtok (delim : Byte → Bool) (mem : List Byte) : Option Nat → Option Strtok
  | none => some ⟨none, none, none⟩
  | some p => do
    let s ← c_string mem p
    let start := p + (s.takeWhile delim).length
    let word := (s.dropWhile delim).takeWhile fun c => !delim c
    let stop := start + word.length
    if word = [] then some ⟨none, none, none⟩
    -- the token is ended by the end of the string
    else if stop = p + s.length then some ⟨some start, none, none⟩
    else some ⟨some start, some stop, some (stop + 1)⟩

/-- The array after the call. -/
def Strtok.memory (r : Strtok) (mem : List Byte) : List Byte :=
  match r.cut with
  | none => mem
  | some q => mem.set q 0#8

/-- The tokens that further calls will return. -/
def Remaining (delim : Byte → Bool) (mem : List Byte) : Option Nat → List (List Byte) → Prop
  | none, toks => toks = []
  | some p, toks => ∃ s, StringAt mem p s ∧ tokens delim s = toks

/-- The call returns the first of the tokens and leaves the others. -/
def Strtok.Returns (delim : Byte → Bool) (mem : List Byte) (r : Strtok) :
    List (List Byte) → Prop
  | [] => r.token = none ∧ Remaining delim (r.memory mem) r.save []
  | w :: rest => ∃ t, r.token = some t ∧ StringAt (r.memory mem) t w ∧
    Remaining delim (r.memory mem) r.save rest

section strtok
variable {delim : Byte → Bool} {mem s : List Byte} {p : Nat}

theorem strtok_blank (h : StringAt mem p s) (hs : ∀ c ∈ s, delim c = true) :
    strtok delim mem (some p) = some ⟨none, none, none⟩ := by
  have hdrop : s.dropWhile delim = [] := List.dropWhile_eq_nil_iff.mpr hs
  simp [strtok, h.c_string_eq, hdrop]

section word
variable {pre w rest : List Byte} {c : Byte} (hpre : ∀ d ∈ pre, delim d = true) (hne : w ≠ [])
  (hw : ∀ d ∈ w, delim d = false)
include hpre hne hw

theorem word_ne_delim (t : List Byte) :
    (pre ++ (w ++ t)).takeWhile delim = pre ∧ (pre ++ (w ++ t)).dropWhile delim = w ++ t := by
  obtain ⟨d, w', rfl⟩ := List.exists_cons_of_ne_nil hne
  have hd : ¬ delim d = true := by simp [hw d]
  rw [List.takeWhile_append_of_pos hpre, List.dropWhile_append_of_pos hpre, List.cons_append,
    List.takeWhile_cons_of_neg hd, List.dropWhile_cons_of_neg hd, List.append_nil]
  exact ⟨rfl, rfl⟩

theorem strtok_last (h : StringAt mem p (pre ++ w)) :
    strtok delim mem (some p) = some ⟨some (p + pre.length), none, none⟩ := by
  have hparts := word_ne_delim hpre hne hw []
  rw [List.append_nil] at hparts
  have hw' : w.takeWhile (fun c => !delim c) = w :=
    List.takeWhile_eq_self_iff.mpr (by simpa using hw)
  unfold strtok
  simp only [h.c_string_eq, Option.bind_eq_bind, Option.bind_some, hparts.1, hparts.2, hw']
  rw [if_neg hne, if_pos (by simp [Nat.add_assoc])]

theorem strtok_word (hc : delim c = true) (h : StringAt mem p (pre ++ (w ++ c :: rest))) :
    strtok delim mem (some p) =
      some ⟨some (p + pre.length), some (p + pre.length + w.length),
        some (p + pre.length + w.length + 1)⟩ := by
  have hparts := word_ne_delim hpre hne hw (c :: rest)
  have hw' : (w ++ c :: rest).takeWhile (fun c => !delim c) = w := by
    rw [List.takeWhile_append_of_pos (by simpa using hw), List.takeWhile_cons_of_neg (by simp [hc]),
      List.append_nil]
  unfold strtok
  simp only [h.c_string_eq, Option.bind_eq_bind, Option.bind_some, hparts.1, hparts.2, hw']
  rw [if_neg hne, if_neg (by simp [Nat.add_assoc])]

end word

/-- A text is blank or has a first word, which ends with the text or at a
    separator. -/
theorem word_cases (delim : Byte → Bool) (s : List Byte) :
    (∀ c ∈ s, delim c = true) ∨
    ∃ pre w rest, s = pre ++ (w ++ rest) ∧ (∀ d ∈ pre, delim d = true) ∧ w ≠ [] ∧
      (∀ d ∈ w, delim d = false) ∧ (rest = [] ∨ ∃ c s', rest = c :: s' ∧ delim c = true) := by
  by_cases hs : ∀ c ∈ s, delim c = true
  · exact .inl hs
  · right
    have hdrop : s.dropWhile delim ≠ [] := fun h => hs (List.dropWhile_eq_nil_iff.mp h)
    obtain ⟨d, t, hdt⟩ := List.exists_cons_of_ne_nil hdrop
    have hd : delim d = false := by
      have hhead := List.head_dropWhile_not delim hdrop
      simpa [hdt] using hhead
    refine ⟨s.takeWhile delim, (d :: t).takeWhile (fun c => !delim c),
      (d :: t).dropWhile (fun c => !delim c), ?_, fun _ hc => List.mem_takeWhile_imp hc,
      by simp [hd], ?_, ?_⟩
    · rw [List.takeWhile_append_dropWhile, ← hdt, List.takeWhile_append_dropWhile]
    · intro c hc
      simpa using List.mem_takeWhile_imp hc
    · rcases hrest : (d :: t).dropWhile (fun c => !delim c) with - | ⟨c, s'⟩
      · exact .inl rfl
      · have hhead := List.head_dropWhile_not (fun c => !delim c) (l := d :: t) (by simp [hrest])
        exact .inr ⟨c, s', rfl, by simpa [hrest] using hhead⟩

/-- `strtok` returns the tokens one after the other. It reads and writes
    inside the array. -/
theorem strtok_spec {save : Option Nat} {toks : List (List Byte)}
    (h : Remaining delim mem save toks) :
    ∃ r, strtok delim mem save = some r ∧ (∀ q, r.cut = some q → q < mem.length) ∧
      r.Returns delim mem toks := by
  cases save with
  | none =>
    obtain rfl : toks = [] := h
    exact ⟨_, rfl, by simp, rfl, rfl⟩
  | some p =>
    obtain ⟨s, hat, rfl⟩ := h
    rcases word_cases delim s with hs | ⟨pre, w, rest, rfl, hpre, hne, hw, hrest⟩
    · rw [(tokens_eq_nil_iff s).mpr hs]
      exact ⟨_, strtok_blank hat hs, by simp, rfl, rfl⟩
    · rw [tokens_append_separators hpre]
      rcases hrest with rfl | ⟨c, s', rfl, hc⟩
      · rw [List.append_nil] at hat ⊢
        rw [tokens_eq_singleton hne hw]
        exact ⟨_, strtok_last hpre hne hw hat, by simp, _, rfl, hat.advance, rfl⟩
      · rw [tokens_word hne hw hc]
        have hword := hat.advance
        have hlen := hword.lt_length
        rw [List.length_append, List.length_cons] at hlen
        refine ⟨_, strtok_word hpre hne hw hc hat, ?_, _, rfl, hword.cut.1, s', hword.cut.2, rfl⟩
        intro q hq
        obtain rfl : p + pre.length + w.length = q := by simpa using hq
        omega

end strtok

/-! ### strtoul -/

/-- White space in the C locale. -/
def isspace (c : Byte) : Bool := decide (9 ≤ c.toNat ∧ c.toNat ≤ 13) || decide (c.toNat = 32)

/-- The base of a numeral, with the length of its `0x`. An `0x` counts when a
    hexadecimal digit follows it. -/
def numeral_base (s : List Byte) : Nat × Nat :=
  if s.take 1 = ascii "0" then
    if (s.take 2 = ascii "0x" ∨ s.take 2 = ascii "0X") ∧ ∃ d ∈ s[2]?, digit_value d < 16
    then (16, 2) else (8, 0)
  else (10, 0)

/-- The unsigned numeral that a text begins with: its value and its length,
    which is zero when there is none. -/
def unsigned_numeral (s : List Byte) : Nat × Nat :=
  let base := numeral_base s
  let digits := (s.drop base.2).takeWhile fun c => digit_value c < base.1
  if digits = [] then (0, 0) else (numeral_value base.1 digits, base.2 + digits.length)

def sign_length (s : List Byte) : Nat :=
  if s.take 1 = ascii "-" ∨ s.take 1 = ascii "+" then 1 else 0

/-- The result of `strtoul`: the value, how far the end pointer is from the
    start, and whether `errno` is set to `ERANGE`. -/
structure Strtoul where
  value : Nat
  consumed : Nat
  erange : Bool
  deriving DecidableEq, Repr

/-- `strtoul` with base 0, where an `unsigned long` has `width` bits. -/
def strtoul (width : Nat) (s : List Byte) : Strtoul :=
  let subject := s.dropWhile isspace
  let number := unsigned_numeral (subject.drop (sign_length subject))
  let consumed := (s.takeWhile isspace).length + sign_length subject + number.2
  if number.2 = 0 then ⟨0, 0, false⟩
  else if 2 ^ width ≤ number.1 then ⟨2 ^ width - 1, consumed, true⟩
  else if subject.take 1 = ascii "-" then ⟨(2 ^ width - number.1) % 2 ^ width, consumed, false⟩
  else ⟨number.1, consumed, false⟩

/-- A text that begins with a digit. -/
theorem strtoul_of_digit {d : Byte} (hd : digit_value d < 10) (s : List Byte) (width : Nat) :
    strtoul width (d :: s) =
      if (unsigned_numeral (d :: s)).2 = 0 then ⟨0, 0, false⟩
      else if 2 ^ width ≤ (unsigned_numeral (d :: s)).1 then
        ⟨2 ^ width - 1, (unsigned_numeral (d :: s)).2, true⟩
      else ⟨(unsigned_numeral (d :: s)).1, (unsigned_numeral (d :: s)).2, false⟩ := by
  have hchars : isspace d = false ∧ d ≠ 45#8 ∧ d ≠ 43#8 := by
    revert d
    decide +kernel
  obtain ⟨hspace, hminus, hplus⟩ := hchars
  have hspace' : ¬ isspace d = true := by simp [hspace]
  have hneg : (d :: s).take 1 ≠ ascii "-" := fun h => hminus (List.cons.inj h).1
  have hpos : (d :: s).take 1 ≠ ascii "+" := fun h => hplus (List.cons.inj h).1
  have hsign : sign_length (d :: s) = 0 := if_neg (not_or.mpr ⟨hneg, hpos⟩)
  unfold strtoul
  dsimp only
  rw [List.dropWhile_cons_of_neg hspace', List.takeWhile_cons_of_neg hspace', hsign,
    List.drop_zero, if_neg hneg, List.length_nil, Nat.zero_add]

section hex
variable {ds : List Byte} (hds : ∀ c ∈ ds, digit_value c < 16) (hne : ds ≠ [])
include hds hne

theorem numeral_base_hex : numeral_base (ascii "0x" ++ ds) = (16, 2) := by
  obtain ⟨d, ds', rfl⟩ := List.exists_cons_of_ne_nil hne
  have htake1 : (ascii "0x" ++ d :: ds').take 1 = ascii "0" := rfl
  have htake2 : (ascii "0x" ++ d :: ds').take 2 = ascii "0x" := rfl
  unfold numeral_base
  rw [if_pos htake1, if_pos ⟨.inl htake2, d, rfl, hds d (by simp)⟩]

theorem unsigned_numeral_hex :
    unsigned_numeral (ascii "0x" ++ ds) = (numeral_value 16 ds, 2 + ds.length) := by
  have hdrop : (ascii "0x" ++ ds).drop 2 = ds := rfl
  have hdigits : ds.takeWhile (fun c => decide (digit_value c < 16)) = ds :=
    List.takeWhile_eq_self_iff.mpr (by simpa using hds)
  unfold unsigned_numeral
  dsimp only
  rw [numeral_base_hex hds hne, hdrop, hdigits, if_neg hne]

/-- A hexadecimal numeral is read to its end. -/
theorem strtoul_hex (width : Nat) :
    strtoul width (ascii "0x" ++ ds) =
      if 2 ^ width ≤ numeral_value 16 ds then ⟨2 ^ width - 1, 2 + ds.length, true⟩
      else ⟨numeral_value 16 ds, 2 + ds.length, false⟩ := by
  have hx : ascii "0x" ++ ds = 48#8 :: (ascii "x" ++ ds) := rfl
  have hnum := unsigned_numeral_hex hds hne
  rw [hx] at hnum ⊢
  rw [strtoul_of_digit (by decide), hnum, if_neg (by omega)]

end hex

/-- Without a hexadecimal digit behind it, the `x` is not read. -/
theorem strtoul_hex_none {c : Byte} (hc : 16 ≤ digit_value c) (s : List Byte) (width : Nat) :
    (strtoul width (ascii "0x" ++ c :: s)).consumed = 1 := by
  have hx : ascii "0x" ++ c :: s = 48#8 :: (ascii "x" ++ c :: s) := rfl
  have hbase : numeral_base (48#8 :: (ascii "x" ++ c :: s)) = (8, 0) := by
    have htake : (48#8 :: (ascii "x" ++ c :: s)).take 1 = ascii "0" := rfl
    unfold numeral_base
    rw [if_pos htake, if_neg]
    rintro ⟨-, d, hd, hlt⟩
    obtain rfl : c = d := Option.some.inj hd
    omega
  have hnum : unsigned_numeral (48#8 :: (ascii "x" ++ c :: s)) = (0, 1) := by
    have hdigits : (48#8 :: (ascii "x" ++ c :: s)).takeWhile
        (fun c => decide (digit_value c < 8)) = ascii "0" := rfl
    unfold unsigned_numeral
    dsimp only
    rw [hbase, List.drop_zero, hdigits]
    rfl
  rw [hx, strtoul_of_digit (by decide), hnum, if_neg (by decide)]
  by_cases hlarge : 2 ^ width ≤ 0
  · rw [if_pos hlarge]
  · rw [if_neg hlarge]

/-! ### Integer literals -/

/-- An unsigned integer literal and its value: decimal digits, octal digits
    behind a `0`, or hexadecimal digits behind `0x`. -/
inductive Literal : List Byte → Nat → Prop where
  | decimal (d : Byte) (ds : List Byte) (hd : 1 ≤ digit_value d ∧ digit_value d < 10)
      (hds : ∀ c ∈ ds, digit_value c < 10) : Literal (d :: ds) (numeral_value 10 (d :: ds))
  | octal (ds : List Byte) (hds : ∀ c ∈ ds, digit_value c < 8) :
      Literal (48#8 :: ds) (numeral_value 8 (48#8 :: ds))
  | hex (x : Byte) (ds : List Byte) (hx : x = 120#8 ∨ x = 88#8) (hne : ds ≠ [])
      (hds : ∀ c ∈ ds, digit_value c < 16) : Literal (48#8 :: x :: ds) (numeral_value 16 ds)

section numeral
variable {s : List Byte} {base k : Nat}

theorem unsigned_numeral_of_digits (hbase : numeral_base s = (base, k))
    (hds : ∀ c ∈ s.drop k, digit_value c < base) (hne : s.drop k ≠ []) :
    unsigned_numeral s = (numeral_value base (s.drop k), s.length) := by
  have hall : (s.drop k).takeWhile (fun c => decide (digit_value c < base)) = s.drop k :=
    List.takeWhile_eq_self_iff.mpr (by simpa using hds)
  have hlen : k + (s.drop k).length = s.length := by
    have hpos := List.length_pos_of_ne_nil hne
    rw [List.length_drop] at hpos ⊢
    omega
  unfold unsigned_numeral
  dsimp only
  rw [hbase, hall, if_neg hne, hlen]

/-- A numeral that is read to the end of a text consists of digits. -/
theorem digits_of_unsigned_numeral (hbase : numeral_base s = (base, k)) (hne : s ≠ [])
    (hfull : (unsigned_numeral s).2 = s.length) :
    (∀ c ∈ s.drop k, digit_value c < base) ∧ s.drop k ≠ [] := by
  have hpos := List.length_pos_of_ne_nil hne
  unfold unsigned_numeral at hfull
  dsimp only at hfull
  rw [hbase] at hfull
  by_cases hnil : (s.drop k).takeWhile (fun c => decide (digit_value c < base)) = []
  · rw [if_pos hnil] at hfull
    exact absurd hfull.symm hpos.ne'
  · rw [if_neg hnil] at hfull
    have hpre := List.takeWhile_prefix (l := s.drop k) fun c => decide (digit_value c < base)
    have hall : (s.drop k).takeWhile (fun c => decide (digit_value c < base)) = s.drop k := by
      apply hpre.eq_of_length_le
      have hsum : k + ((s.drop k).takeWhile fun c => decide (digit_value c < base)).length =
        s.length := hfull
      rw [List.length_drop]
      omega
    rw [hall] at hnil
    exact ⟨by simpa using List.takeWhile_eq_self_iff.mp hall, hnil⟩

theorem unsigned_numeral_length_le (s : List Byte) : (unsigned_numeral s).2 ≤ s.length := by
  unfold unsigned_numeral
  dsimp only
  split
  · exact Nat.zero_le _
  · rename_i hne
    have hle := (List.takeWhile_prefix (l := s.drop (numeral_base s).2)
      fun c => decide (digit_value c < (numeral_base s).1)).length_le
    have hpos := List.length_pos_of_ne_nil hne
    rw [List.length_drop] at hle
    show (numeral_base s).2 + _ ≤ _
    omega

/-- The three kinds of numeral. -/
theorem numeral_base_cases (s : List Byte) :
    (∃ x ds, (x = 120#8 ∨ x = 88#8) ∧ s = 48#8 :: x :: ds ∧ numeral_base s = (16, 2)) ∨
    (∃ ds, s = 48#8 :: ds ∧ numeral_base s = (8, 0)) ∨
    (s.take 1 ≠ ascii "0" ∧ numeral_base s = (10, 0)) := by
  unfold numeral_base
  by_cases h0 : s.take 1 = ascii "0"
  · rw [if_pos h0]
    obtain ⟨ds, rfl⟩ : ∃ ds, s = 48#8 :: ds := by
      cases s with
      | nil => exact absurd h0 (by decide)
      | cons c ds => exact ⟨ds, congrArg (· :: ds) (List.cons.inj h0).1⟩
    by_cases hx : ((48#8 :: ds).take 2 = ascii "0x" ∨ (48#8 :: ds).take 2 = ascii "0X") ∧
        ∃ d ∈ (48#8 :: ds)[2]?, digit_value d < 16
    · left
      cases ds with
      | nil => exact absurd hx.1 (by decide)
      | cons x ds =>
        refine ⟨x, ds, ?_, rfl, if_pos hx⟩
        rcases hx.1 with h | h
        · exact .inl (List.cons.inj (List.cons.inj h).2).1
        · exact .inr (List.cons.inj (List.cons.inj h).2).1
    · exact .inr (.inl ⟨ds, rfl, if_neg hx⟩)
  · exact .inr (.inr ⟨h0, if_neg h0⟩)

/-- An `x` is no octal digit. -/
theorem numeral_base_octal {ds : List Byte} (hds : ∀ c ∈ ds, digit_value c < 8) :
    numeral_base (48#8 :: ds) = (8, 0) := by
  rcases numeral_base_cases (48#8 :: ds) with h | h | h
  · obtain ⟨x, ds', hx, heq, -⟩ := h
    obtain rfl : ds = x :: ds' := (List.cons.inj heq).2
    have hlt := hds x (by simp)
    rcases hx with rfl | rfl
    · exact absurd hlt (by decide)
    · exact absurd hlt (by decide)
  · obtain ⟨-, -, hbase⟩ := h
    exact hbase
  · exact absurd rfl h.1

theorem numeral_base_hex_digit {x d : Byte} (hx : x = 120#8 ∨ x = 88#8)
    (hd : digit_value d < 16) (ds : List Byte) :
    numeral_base (48#8 :: x :: d :: ds) = (16, 2) := by
  have hzerox : [48#8, x] = ascii "0x" ∨ [48#8, x] = ascii "0X" := by
    rcases hx with rfl | rfl
    · exact .inl rfl
    · exact .inr rfl
  unfold numeral_base
  rw [if_pos (show (48#8 :: x :: d :: ds).take 1 = ascii "0" from rfl)]
  exact if_pos ⟨hzerox, d, rfl, hd⟩

theorem digit_zero : ∀ d : Byte, digit_value d = 0 → d = 48#8 := by decide +kernel

/-- The literals are the texts that are read to the end as a numeral. -/
theorem literal_iff (s : List Byte) (v : Nat) :
    Literal s v ↔ s ≠ [] ∧ unsigned_numeral s = (v, s.length) := by
  constructor
  · intro h
    cases h with
    | decimal d ds hd hds =>
      refine ⟨List.cons_ne_nil _ _, ?_⟩
      have hd0 : (d :: ds).take 1 ≠ ascii "0" := by
        intro h0
        obtain rfl : d = 48#8 := (List.cons.inj h0).1
        exact absurd hd.1 (by decide)
      have hbase : numeral_base (d :: ds) = (10, 0) := if_neg hd0
      apply unsigned_numeral_of_digits hbase _ (List.cons_ne_nil _ _)
      intro c hc
      rcases List.mem_cons.mp hc with rfl | hc
      · exact hd.2
      · exact hds c hc
    | octal ds hds =>
      refine ⟨List.cons_ne_nil _ _, ?_⟩
      apply unsigned_numeral_of_digits (numeral_base_octal hds) _ (List.cons_ne_nil _ _)
      intro c hc
      rcases List.mem_cons.mp hc with rfl | hc
      · decide
      · exact hds c hc
    | hex x ds hx hne hds =>
      refine ⟨List.cons_ne_nil _ _, ?_⟩
      obtain ⟨d, ds', rfl⟩ := List.exists_cons_of_ne_nil hne
      exact unsigned_numeral_of_digits (numeral_base_hex_digit hx (hds d (by simp)) ds') hds hne
  · intro h
    obtain ⟨hne, hnum⟩ := h
    have hlen : (unsigned_numeral s).2 = s.length := by rw [hnum]
    have hval : (unsigned_numeral s).1 = v := by rw [hnum]
    rcases numeral_base_cases s with h | h | h
    · obtain ⟨x, ds, hx, rfl, hbase⟩ := h
      obtain ⟨hds, hdne⟩ := digits_of_unsigned_numeral hbase hne hlen
      rw [unsigned_numeral_of_digits hbase hds hdne] at hval
      subst hval
      exact .hex x ds hx hdne hds
    · obtain ⟨ds, rfl, hbase⟩ := h
      obtain ⟨hds, hdne⟩ := digits_of_unsigned_numeral hbase hne hlen
      rw [unsigned_numeral_of_digits hbase hds hdne] at hval
      subst hval
      exact .octal ds fun c hc => hds c (List.mem_cons_of_mem _ hc)
    · obtain ⟨h0, hbase⟩ := h
      obtain ⟨hds, hdne⟩ := digits_of_unsigned_numeral hbase hne hlen
      rw [unsigned_numeral_of_digits hbase hds hdne] at hval
      subst hval
      obtain ⟨d, ds, rfl⟩ := List.exists_cons_of_ne_nil hne
      have hd := hds d (by simp)
      refine .decimal d ds ⟨?_, hd⟩ fun c hc => hds c (List.mem_cons_of_mem _ hc)
      -- the digit with value zero is `0`
      apply Nat.pos_of_ne_zero
      intro hzero
      obtain rfl := digit_zero d hzero
      exact h0 rfl

end numeral

/-! ### What strtoul reads -/

/-- What is left of a text behind its white space and its sign. -/
def unsigned_part (s : List Byte) : List Byte :=
  (s.dropWhile isspace).drop (sign_length (s.dropWhile isspace))

def is_negative (s : List Byte) : Bool := decide ((s.dropWhile isspace).take 1 = ascii "-")

theorem sign_length_le (s : List Byte) : sign_length s ≤ s.length := by
  unfold sign_length
  split
  · rename_i h
    cases s with
    | nil => rcases h with h | h <;> exact absurd h (by decide)
    | cons c s => exact Nat.succ_le_succ (Nat.zero_le _)
  · exact Nat.zero_le _

theorem length_eq_parts (s : List Byte) :
    s.length = (s.takeWhile isspace).length + sign_length (s.dropWhile isspace) +
      (unsigned_part s).length := by
  have hsign := sign_length_le (s.dropWhile isspace)
  have happ := congrArg List.length (List.takeWhile_append_dropWhile (p := isspace) (l := s))
  rw [List.length_append] at happ
  unfold unsigned_part
  rw [List.length_drop]
  omega

/-- `strtoul` reads a text to its end when its unsigned part is a literal. -/
theorem strtoul_of_literal {s : List Byte} {v : Nat} (width : Nat)
    (h : Literal (unsigned_part s) v) :
    strtoul width s =
      if 2 ^ width ≤ v then ⟨2 ^ width - 1, s.length, true⟩
      else ⟨if is_negative s then (2 ^ width - v) % 2 ^ width else v, s.length, false⟩ := by
  obtain ⟨hne, hnum⟩ := (literal_iff _ _).mp h
  have hpos : ¬ (unsigned_part s).length = 0 := by simpa using hne
  have hnum' : unsigned_numeral ((s.dropWhile isspace).drop
      (sign_length (s.dropWhile isspace))) = (v, (unsigned_part s).length) := hnum
  unfold strtoul
  dsimp only
  rw [hnum', if_neg hpos, ← length_eq_parts s]
  by_cases hover : 2 ^ width ≤ v
  · rw [if_pos hover, if_pos hover]
  · rw [if_neg hover, if_neg hover]
    by_cases hsign : (s.dropWhile isspace).take 1 = ascii "-"
    · have hneg : is_negative s = true := decide_eq_true hsign
      rw [if_pos hsign, if_pos hneg]
    · have hneg : is_negative s = false := decide_eq_false hsign
      rw [if_neg hsign, hneg]
      rfl

/-- Nothing else is read to its end. -/
theorem literal_of_strtoul {s : List Byte} (width : Nat) (hread : (strtoul width s).consumed ≠ 0)
    (hend : s.drop (strtoul width s).consumed = []) : ∃ v, Literal (unsigned_part s) v := by
  have hlen := length_eq_parts s
  have hle := unsigned_numeral_length_le (unsigned_part s)
  have hconsumed : (strtoul width s).consumed =
      if (unsigned_numeral (unsigned_part s)).2 = 0 then 0
      else (s.takeWhile isspace).length + sign_length (s.dropWhile isspace) +
        (unsigned_numeral (unsigned_part s)).2 := by
    unfold strtoul unsigned_part
    dsimp only
    grind
  rw [hconsumed] at hread hend
  by_cases hz : (unsigned_numeral (unsigned_part s)).2 = 0
  · exact absurd (if_pos hz) hread
  · rw [if_neg hz] at hend
    have hge := List.drop_eq_nil_iff.mp hend
    refine ⟨(unsigned_numeral (unsigned_part s)).1, (literal_iff _ _).mpr ⟨?_, ?_⟩⟩
    · intro hnil
      rw [hnil] at hz
      exact hz rfl
    · exact Prod.ext rfl (show (unsigned_numeral (unsigned_part s)).2 = _ by omega)

/-- A literal begins with a digit: there is nothing in front of its unsigned
    part. -/
theorem literal_head {s : List Byte} {v : Nat} (h : Literal s v) :
    ∃ d ds, s = d :: ds ∧ digit_value d < 10 := by
  cases h with
  | decimal d ds hd _ => exact ⟨d, ds, rfl, hd.2⟩
  | octal ds _ => exact ⟨48#8, ds, rfl, by decide⟩
  | hex x ds _ _ _ => exact ⟨48#8, x :: ds, rfl, by decide⟩

theorem digit_not_sign : ∀ d : Byte, digit_value d < 10 →
    isspace d = false ∧ d ≠ 45#8 ∧ d ≠ 43#8 := by decide +kernel

/-- White space and at most one sign, something of the two. -/
def Decoration (pre : List Byte) : Prop :=
  pre ≠ [] ∧ ∃ ws sgn, pre = ws ++ sgn ∧ (∀ c ∈ ws, isspace c = true) ∧
    (sgn = [] ∨ sgn = ascii "+" ∨ sgn = ascii "-")

/-- The text behind white space and a sign. -/
theorem unsigned_part_append {ws sgn lit : List Byte} {v : Nat}
    (hws : ∀ c ∈ ws, isspace c = true) (hsgn : sgn = [] ∨ sgn = ascii "+" ∨ sgn = ascii "-")
    (h : Literal lit v) :
    unsigned_part (ws ++ (sgn ++ lit)) = lit ∧
      (is_negative (ws ++ (sgn ++ lit)) = true ↔ sgn = ascii "-") := by
  obtain ⟨d, ds, rfl, hd⟩ := literal_head h
  obtain ⟨hspace, hminus, hplus⟩ := digit_not_sign d hd
  have hneg : (d :: ds).take 1 ≠ ascii "-" := fun h => hminus (List.cons.inj h).1
  have hpos : (d :: ds).take 1 ≠ ascii "+" := fun h => hplus (List.cons.inj h).1
  have hnone : sign_length (d :: ds) = 0 := if_neg (not_or.mpr ⟨hneg, hpos⟩)
  have hspace' : ¬ isspace d = true := by simp [hspace]
  unfold unsigned_part is_negative
  rw [List.dropWhile_append_of_pos hws]
  rcases hsgn with rfl | rfl | rfl
  · rw [List.nil_append, List.dropWhile_cons_of_neg hspace', hnone]
    exact ⟨rfl, iff_of_false (fun h => hneg (of_decide_eq_true h)) (by decide)⟩
  · have hdrop : (ascii "+" ++ d :: ds).dropWhile isspace = ascii "+" ++ d :: ds :=
      List.dropWhile_cons_of_neg (by decide)
    have hplus' : ¬ (ascii "+" ++ d :: ds).take 1 = ascii "-" := fun h =>
      absurd (List.cons.inj h).1 (by decide)
    rw [hdrop]
    exact ⟨rfl, iff_of_false (fun h => hplus' (of_decide_eq_true h)) (by decide)⟩
  · have hdrop : (ascii "-" ++ d :: ds).dropWhile isspace = ascii "-" ++ d :: ds :=
      List.dropWhile_cons_of_neg (by decide)
    rw [hdrop]
    exact ⟨rfl, iff_of_true rfl rfl⟩

/-- A text whose unsigned part is a literal is the literal, or has white space
    or a sign in front of it. -/
theorem unsigned_part_iff {s lit : List Byte} {v : Nat} (h : Literal lit v) :
    unsigned_part s = lit ↔ s = lit ∨ ∃ pre, Decoration pre ∧ s = pre ++ lit := by
  constructor
  · intro hpart
    have hsplit : s = (s.takeWhile isspace ++
        (s.dropWhile isspace).take (sign_length (s.dropWhile isspace))) ++ lit := by
      rw [List.append_assoc, ← hpart, unsigned_part, List.take_append_drop,
        List.takeWhile_append_dropWhile]
    have hsgn : (s.dropWhile isspace).take (sign_length (s.dropWhile isspace)) = [] ∨
        (s.dropWhile isspace).take (sign_length (s.dropWhile isspace)) = ascii "+" ∨
        (s.dropWhile isspace).take (sign_length (s.dropWhile isspace)) = ascii "-" := by
      unfold sign_length
      split
      · rename_i h
        exact .inr h.symm
      · exact .inl List.take_zero
    by_cases hpre : s.takeWhile isspace ++
        (s.dropWhile isspace).take (sign_length (s.dropWhile isspace)) = []
    · rw [hpre] at hsplit
      exact .inl hsplit
    · exact .inr ⟨_, ⟨hpre, _, _, rfl, fun c hc => List.mem_takeWhile_imp hc, hsgn⟩, hsplit⟩
  · intro hs
    rcases hs with rfl | ⟨pre, hpre, rfl⟩
    · exact (@unsigned_part_append [] [] s v (by simp) (.inl rfl) h).1
    · obtain ⟨-, ws, sgn, rfl, hws, hsgn⟩ := hpre
      rw [List.append_assoc]
      exact (unsigned_part_append hws hsgn h).1

end CString
